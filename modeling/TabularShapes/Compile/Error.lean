import TabularShapes.Name.Reading
import TabularShapes.Schema.Check

/-! Why a profile is no schema, and what a lenient compilation let pass. -/

namespace TabularShapes

inductive CompileError
  | conflictingValue (shape property : String) (line : Nat)
  | danglingReference (reference shape property : String)
  | duplicateShape (id : String) (line : Nat)
  | invalidName (name : String) (cause : NameTextError)
  | undeclaredPrefix (name space : String)
  | incompatibleKind (shape property : String) (kind : NodeKind) (line : Nat)
  | invalidSchema (error : SchemaError)
deriving DecidableEq

def CompileError.message : CompileError → String
  | .conflictingValue shape property line =>
    s!"Property {property} of shape {shape} (line {line}) " ++
      "has both a value datatype and a value shape"
  | .danglingReference reference shape property =>
    s!"Property {property} of shape {shape} references the undefined shape {reference}"
  | .duplicateShape id line => s!"Shape {id} (line {line}) is declared more than once"
  | .invalidName name cause => s!"Invalid name '{name}': {cause.message}"
  | .undeclaredPrefix name space => s!"The prefix '{space}' of '{name}' is not declared"
  | .incompatibleKind shape property kind line =>
    s!"Property {property} of shape {shape} (line {line}) " ++
      s!"has the value node type {kind.keyword} that contradicts its value constraint"
  | .invalidSchema error => error.message

/-- A reference to an undefined shape that was dropped. -/
structure Warning where
  reference : String
  shape : String
  property : String
deriving DecidableEq, Repr

def Warning.message (w : Warning) : String :=
  s!"Property {w.property} of shape {w.shape} references the undefined shape {w.reference}, " ++
    "any value is accepted instead"

end TabularShapes
