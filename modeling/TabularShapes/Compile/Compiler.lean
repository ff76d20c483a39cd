import TabularShapes.Compile.Error
import TabularShapes.Log.Traced
import TabularShapes.Profile.Shape

/-! From the shapes of a profile to a schema. Each shape becomes a declaration and each of its
statements a constraint, in the same order. Two names stand for the same shape when they expand to
the same IRI. All shapes are named before any reference is looked up, so references may point
forward and in circles. -/

namespace TabularShapes

open Log (Event)

/-- Gives the IRI of an abbreviated datatype, or leaves the name as it is written. -/
abbrev Resolver := String → String → Option String

def Resolver.none : Resolver := fun _ _ => Option.none

def PrefixMap.resolver (m : PrefixMap) : Resolver := m.expand

structure Compiler where
  /-- The namespaces of the schema. -/
  prefixes : PrefixMap
  /-- What becomes of abbreviated datatypes. -/
  resolver : Resolver := Resolver.none
  /-- Whether references to undefined shapes are dropped with a warning. -/
  lenient : Bool := false

namespace Compiler

/-- The namespaces that are declared unless others are asked for. -/
def defaultPrefixes : PrefixMap :=
  ⟨[("", "http://example.org/"), ("xsd", "http://www.w3.org/2001/XMLSchema#")]⟩

def default : Compiler := { prefixes := defaultPrefixes }

instance : Inhabited Compiler := ⟨default⟩

def withoutPrefixes (c : Compiler) : Compiler := { c with prefixes := ∅ }

def withPrefix (c : Compiler) (space iri : String) : Except NameError Compiler :=
  (c.prefixes.withPrefix space iri).map fun prefixes => { c with prefixes }

/-- The compiler with more namespaces, up to the first that is refused. -/
def withPrefixes (c : Compiler) (pairs : List (String × String)) : Except NameError Compiler :=
  (c.prefixes.insertAll pairs).map fun prefixes => { c with prefixes }

/-- Refuses a name whose abbreviation is undeclared; `text` is what is written for it. -/
def checkDeclared (c : Compiler) (text : String) (n : Name) : Except CompileError Name :=
  match n.undeclared? c.prefixes with
  | some space => .error (.undeclaredPrefix text space)
  | none => .ok n

def parse (text : String) : Except CompileError Name :=
  (Name.read text).mapError (.invalidName text)

/-- The name that the text stands for, which has to be in full or of a declared namespace. -/
def declaredName (c : Compiler) (text : String) : Except CompileError Name := do
  c.checkDeclared text (← parse text)

/-- The name of a datatype: what the resolver answers, if it does, and else the name as written. -/
def datatype (c : Compiler) (text : String) : Except CompileError Name := do
  let name ← parse text
  match name.parts?.bind fun (space, ending) => c.resolver space ending with
  | some iri => (Name.ofIri iri).mapError fun e => .invalidName text (.invalid e)
  | none => c.checkDeclared text name

/-- The names of the shapes by the IRI that they stand for. -/
abbrev ShapeTable := List (String × Name)

def nameShapes (c : Compiler) (seen : List String) :
    List Profile.Shape → Except CompileError ShapeTable
  | [] => .ok []
  | s :: rest => do
    let id ← c.declaredName s.id
    let iri := id.identity c.prefixes
    if iri ∈ seen then .error (.duplicateShape s.id s.line)
    else return (iri, id) :: (← c.nameShapes (iri :: seen) rest)

def valueOfKind (kind : Option NodeKind) : Value := kind.elim .any .nodeKind

/-- What the values of a property have to be, with a warning if a reference was dropped. -/
def value (c : Compiler) (table : ShapeTable) (shape : String) (st : Profile.Statement) :
    Traced CompileError (Value × List Warning) :=
  match st.datatype, st.valueShape with
  | some _, some _ => Traced.of (.error (.conflictingValue shape st.property st.line))
  | some text, none => Traced.of <|
    match st.nodeKind.filter (· ≠ .literal) with
    | some kind => .error (.incompatibleKind shape st.property kind st.line)
    | none => (c.datatype text).map fun n => (.datatype n, [])
  | none, some text =>
    if st.nodeKind = some .literal then
      Traced.of (.error (.incompatibleKind shape st.property .literal st.line))
    else do
      let target ← c.declaredName text
      match table.lookup (target.identity c.prefixes) with
      | some id => return (.reference id, [])
      | none =>
        if c.lenient then
          Traced.report (.referenceDropped text shape st.property)
          return (valueOfKind st.nodeKind, [⟨text, shape, st.property⟩])
        else Traced.of (.error (.danglingReference text shape st.property))
  | none, none => return (valueOfKind st.nodeKind, [])

def constraint (c : Compiler) (table : ShapeTable) (shape : String) (st : Profile.Statement) :
    Traced CompileError (Constraint × List Warning) := do
  let predicate ← c.declaredName st.property
  let (value, warnings) ← c.value table shape st
  return ({ predicate, value, label := st.label
            cardinality := Cardinality.ofFlags st.mandatory st.repeatable }, warnings)

def constraints (c : Compiler) (table : ShapeTable) (shape : String) :
    List Profile.Statement → Traced CompileError (List Constraint × List Warning)
  | [] => return ([], [])
  | st :: rest => do
    let (k, warnings) ← c.constraint table shape st
    let (ks, more) ← c.constraints table shape rest
    return (k :: ks, warnings ++ more)

def declaration (c : Compiler) (table : ShapeTable) (id : Name) (s : Profile.Shape) :
    Traced CompileError (Declaration × List Warning) := do
  let (constraints, warnings) ← c.constraints table s.id s.statements
  return ({ id, label := s.label, constraints }, warnings)

/-- The declarations that the shapes make, each with the name that was read for it. -/
def declarations (c : Compiler) (table : ShapeTable) :
    List (Profile.Shape × Name) → Traced CompileError (List Declaration × List Warning)
  | [] => return ([], [])
  | (s, id) :: rest => do
    let (d, warnings) ← c.declaration table id s
    let (ds, more) ← c.declarations table rest
    return (d :: ds, warnings ++ more)

def compile (c : Compiler) (shapes : List Profile.Shape) :
    Traced CompileError (Schema × List Warning) := do
  let table ← c.nameShapes [] shapes
  let (ds, warnings) ← c.declarations table (shapes.zip (table.map (·.2)))
  let schema := Schema.addAll ⟨c.prefixes, []⟩ ds
  (schema.check.mapError .invalidSchema : Except CompileError Unit)
  let constraints := (ds.flatMap (·.constraints)).length
  Traced.report (.schemaCompiled schema.size constraints warnings.length)
  return (schema, warnings)

end Compiler

end TabularShapes
