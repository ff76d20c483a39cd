import TabularShapes.Name.PrefixMap
import TabularShapes.NodeKind

/-! Schemas: declarations of shapes in the order in which their names were first added. A shape
lists the constraints on the triples that leave a node. -/

namespace TabularShapes

/-- How often a property may occur. `one` and `requiredOne` allow the same number; the second
records that the property was declared mandatory. -/
inductive Cardinality
  | one | requiredOne | zeroOrMore | oneOrMore
deriving DecidableEq, Repr, Inhabited

namespace Cardinality

def min : Cardinality → Nat
  | zeroOrMore => 0
  | _ => 1

def max? : Cardinality → Option Nat
  | one | requiredOne => some 1
  | zeroOrMore | oneOrMore => none

/-- The sign after a constraint of the compact syntax; exactly one has none. -/
def marker : Cardinality → String
  | one | requiredOne => ""
  | zeroOrMore => "*"
  | oneOrMore => "+"

def ofFlags (mandatory repeatable : Bool) : Cardinality :=
  match mandatory, repeatable with
  | false, false => one
  | true, false => requiredOne
  | false, true => zeroOrMore
  | true, true => oneOrMore

end Cardinality

inductive Value
  | datatype (name : Name)
  | reference (name : Name)
  | nodeKind (kind : NodeKind)
  | any
deriving DecidableEq

def Value.name? : Value → Option Name
  | .datatype n | .reference n => some n
  | .nodeKind _ | .any => none

def Value.reference? : Value → Option Name
  | .reference n => some n
  | _ => none

structure Constraint where
  predicate : Name
  value : Value := .any
  cardinality : Cardinality := .one
  label : Option String := none
deriving DecidableEq

structure Declaration where
  id : Name
  label : Option String := none
  constraints : List Constraint := []
deriving DecidableEq

namespace Declaration

def isEmpty (d : Declaration) : Bool := d.constraints.isEmpty

/-- The predicates and the names used as values, in order. -/
def names (d : Declaration) : List Name :=
  d.constraints.flatMap fun c => c.predicate :: c.value.name?.toList

/-- The constraints that refer to a shape, as predicate and shape, in order. -/
def references (d : Declaration) : List (Name × Name) :=
  d.constraints.filterMap fun c => c.value.reference?.map (c.predicate, ·)

end Declaration

structure Schema where
  prefixes : PrefixMap
  declarations : List Declaration
deriving DecidableEq

namespace Schema

def empty : Schema := ⟨∅, []⟩

instance : EmptyCollection Schema := ⟨empty⟩

/-- The declarations with `d` in the place of the one of the same name, or at the end, and the
declaration that had to make place. -/
def put (d : Declaration) : List Declaration → List Declaration × Option Declaration
  | [] => ([d], none)
  | e :: rest =>
    if e.id = d.id then (d :: rest, some e)
    else ((put d rest).map (e :: ·) id)

def get? (s : Schema) (id : Name) : Option Declaration := s.declarations.find? (·.id == id)

def declares (s : Schema) (id : Name) : Bool := (s.get? id).isSome

/-- Adds a declaration. One of the same name is replaced in place, and given back. -/
def exchange (s : Schema) (d : Declaration) : Schema × Option Declaration :=
  let (declarations, old) := put d s.declarations
  ({ s with declarations }, old)

def add (s : Schema) (d : Declaration) : Schema := (s.exchange d).1

def addAll (s : Schema) (ds : List Declaration) : Schema := ds.foldl add s

def withPrefixes (s : Schema) (m : PrefixMap) : Schema := { s with prefixes := m }

def size (s : Schema) : Nat := s.declarations.length

def isEmpty (s : Schema) : Bool := s.declarations.isEmpty

theorem find?_put (d : Declaration) (id : Name) (ds : List Declaration) :
    (put d ds).1.find? (·.id == id) = if d.id = id then some d else ds.find? (·.id == id) := by
  induction ds with
  | nil => by_cases h : d.id = id <;> simp [put, h]
  | cons e rest ih =>
    by_cases he : e.id = d.id
    · by_cases h : d.id = id
      · simp [put, he, h]
      · simp [put, he, h, beq_false_of_ne h]
    · by_cases hk : e.id = id
      · subst hk
        simp [put, he, Ne.symm he]
      · simp [put, he, beq_false_of_ne hk, ih]

theorem snd_put (d : Declaration) (ds : List Declaration) :
    (put d ds).2 = ds.find? (·.id == d.id) := by
  induction ds with
  | nil => rfl
  | cons e rest ih =>
    by_cases he : e.id = d.id
    · simp [put, he]
    · simp [put, he, beq_false_of_ne he, ih]

theorem snd_exchange (s : Schema) (d : Declaration) : (s.exchange d).2 = s.get? d.id :=
  snd_put d s.declarations

@[simp]
theorem get?_add (s : Schema) (d : Declaration) (id : Name) :
    (s.add d).get? id = if d.id = id then some d else s.get? id :=
  find?_put d id s.declarations

end Schema

end TabularShapes
