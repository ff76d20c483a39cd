import TabularShapes.Schema.Basic

/-! What keeps a schema from being written in every syntax: a name whose abbreviation is undeclared,
and a reference to a shape that is not there. References are looked up and never followed, so
shapes may refer to each other in circles. -/

namespace TabularShapes

structure Dangling where
  shape : Name
  predicate : Name
  reference : Name
deriving DecidableEq

inductive SchemaError
  | undeclaredPrefix (name : Name) (space : String)
  | undefinedReference (dangling : Dangling)
deriving DecidableEq

def SchemaError.message : SchemaError → String
  | .undeclaredPrefix name space =>
    let name := name.written
    s!"The prefix '{space}' of {name} is not declared"
  | .undefinedReference d =>
    let reference := d.reference.written
    let shape := d.shape.written
    let predicate := d.predicate.written
    s!"Undefined shape reference {reference} in shape {shape} for predicate {predicate}"

namespace Schema

/-- Every name in the order in which a schema is written: the name of a shape, then predicate and
value of each of its constraints. -/
def names (s : Schema) : List Name := s.declarations.flatMap fun d => d.id :: d.names

def dangling (s : Schema) : List Dangling :=
  s.declarations.flatMap fun d =>
    (d.references.filter fun (_, r) => !s.declares r).map fun (p, r) => ⟨d.id, p, r⟩

/-- The first name with an undeclared abbreviation, and without one the first dangling reference. -/
def check (s : Schema) : Except SchemaError Unit :=
  match s.names.findSome? fun n => (n.undeclared? s.prefixes).map (n, ·) with
  | some (n, space) => .error (.undeclaredPrefix n space)
  | none =>
    match s.dangling with
    | d :: _ => .error (.undefinedReference d)
    | [] => .ok ()

end Schema

end TabularShapes
