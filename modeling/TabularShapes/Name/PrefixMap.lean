import TabularShapes.Name.Basic

/-! Declarations of namespaces in the order of their first appearance. Declaring a name again
replaces its namespace and keeps its place. -/

namespace TabularShapes

structure PrefixMap where
  declarations : List (String × String)
deriving DecidableEq, Repr

namespace PrefixMap

def empty : PrefixMap := ⟨[]⟩

instance : EmptyCollection PrefixMap := ⟨empty⟩

/-- The pairs with `space` bound to `iri`, in place if it is bound already and else at the end. -/
def put (space iri : String) : List (String × String) → List (String × String)
  | [] => [(space, iri)]
  | (s, i) :: rest => if s = space then (s, iri) :: rest else (s, i) :: put space iri rest

/-- Declares a namespace without judging either text. -/
def declare (m : PrefixMap) (space iri : String) : PrefixMap := ⟨put space iri m.declarations⟩

/-- Declares a namespace: the map that is left, and whether the declaration was accepted. The
abbreviation is judged before the IRI. -/
def insert (m : PrefixMap) (space iri : String) : PrefixMap × Except NameError Unit :=
  let step : ExceptT NameError (StateM PrefixMap) Unit := do
    let space ← PrefixName.ofText space
    let iri ← Iri.ofText iri
    modify (·.declare space.text iri.text)
  (step.run.run m).swap

/-- The map with one more namespace, unless that is refused. -/
def withPrefix (m : PrefixMap) (space iri : String) : Except NameError PrefixMap :=
  let (m', result) := m.insert space iri
  result.map fun _ => m'

def get? (m : PrefixMap) (space : String) : Option String := m.declarations.lookup space

def declares (m : PrefixMap) (space : String) : Bool := (m.get? space).isSome

/-- The IRI that the abbreviated name stands for, if its abbreviation is declared. -/
def expand (m : PrefixMap) (space ending : String) : Option String :=
  (m.get? space).map (· ++ ending)

def size (m : PrefixMap) : Nat := m.declarations.length

def isEmpty (m : PrefixMap) : Bool := m.declarations.isEmpty

/-- Declares the pairs one after the other, without judging them. -/
def declareAll (m : PrefixMap) (pairs : List (String × String)) : PrefixMap :=
  pairs.foldl (fun m (space, iri) => m.declare space iri) m

/-- Declares the pairs one after the other, up to the first that is refused. -/
def insertAll (m : PrefixMap) : List (String × String) → Except NameError PrefixMap
  | [] => .ok m
  | (space, iri) :: rest => do (← m.withPrefix space iri).insertAll rest

theorem lookup_put (space iri key : String) (pairs : List (String × String)) :
    (put space iri pairs).lookup key = if key = space then some iri else pairs.lookup key := by
  induction pairs with
  | nil =>
    by_cases h : key = space
    · simp [put, h]
    · simp [put, List.lookup_cons, h, beq_false_of_ne h]
  | cons p rest ih =>
    obtain ⟨s, i⟩ := p
    by_cases hs : s = space
    · subst hs
      by_cases h : key = s
      · simp [put, h]
      · simp [put, List.lookup_cons, h, beq_false_of_ne h]
    · by_cases hk : key = s
      · simp [put, hs, hk]
      · simp [put, hs, List.lookup_cons, beq_false_of_ne hk, ih]

@[simp]
theorem get?_declare (m : PrefixMap) (space iri key : String) :
    (m.declare space iri).get? key = if key = space then some iri else m.get? key :=
  lookup_put space iri key m.declarations

end PrefixMap

/-- The IRI that the name stands for, if it is written in full or its abbreviation is declared. -/
def Name.expand (n : Name) (m : PrefixMap) : Option String :=
  match n with
  | .full iri => some iri.text
  | .short space ending => m.expand space.text ending.text

/-- The IRI that the name stands for, or the name as written if its abbreviation is undeclared. -/
def Name.identity (n : Name) (m : PrefixMap) : String := (n.expand m).getD n.written

def Name.undeclared? (n : Name) (m : PrefixMap) : Option String :=
  match n with
  | .full _ => none
  | .short space _ => if m.declares space.text then none else some space.text

end TabularShapes
