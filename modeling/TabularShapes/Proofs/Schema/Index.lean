import TabularShapes.Proofs.Schema.Reporting

/-! Schemas that are kept with an index, which has the position of each declaration under its name.
The index stays in step with the declarations while they are added and replaced, so that what is
looked up in it is what a search of the declarations finds, and the check of such a schema reports the
first thing that is wrong. -/

namespace TabularShapes.Schema

structure Indexed where
  schema : Schema := ∅
  index : List (Name × ℕ) := []

inductive Change
  | prefixes (m : PrefixMap)
  | add (d : Declaration)

def after (s : Schema) : Change → Schema × Option Declaration
  | .prefixes m => (s.withPrefixes m, none)
  | .add d => s.exchange d

def run (changes : List Change) : Schema := changes.foldl (fun s c => (s.after c).1) ∅

namespace Indexed

variable {s : Indexed} {c : Change} {d : Declaration} {id : Name} {i : ℕ}

def declares (s : Indexed) (id : Name) : Bool := (s.index.lookup id).isSome

/-- Adds a declaration. One whose name has a position takes that position, and the other one is given
back. -/
def exchange (s : Indexed) (d : Declaration) : Indexed × Option Declaration :=
  let ds := s.schema.declarations
  match s.index.lookup d.id with
  | some i => ({ s with schema := { s.schema with declarations := ds.set i d } }, ds[i]?)
  | none =>
    (⟨{ s.schema with declarations := ds ++ [d] }, (d.id, ds.length) :: s.index⟩, none)

def after (s : Indexed) : Change → Indexed × Option Declaration
  | .prefixes m => ({ s with schema := s.schema.withPrefixes m }, none)
  | .add d => s.exchange d

def run (changes : List Change) : Indexed := changes.foldl (fun s c => (s.after c).1) {}

def dangling (s : Indexed) : List Dangling :=
  s.schema.declarations.flatMap fun d =>
    (d.references.filter fun p => !s.declares p.2).map fun p => ⟨d.id, p.1, p.2⟩

def check (s : Indexed) : Except SchemaError Unit :=
  verdict s.schema.lacking? s.dangling.head?

/-- The index has the position of each declaration under its name, and no other positions. -/
def InStep (s : Indexed) : Prop :=
  ∀ id i, s.index.lookup id = some i ↔ (s.schema.declarations.map (·.id))[i]? = some id

theorem InStep.lookup_eq_none_iff (h : s.InStep) :
    s.index.lookup id = none ↔ id ∉ s.schema.declarations.map (·.id) := by
  rw [Option.eq_none_iff_forall_ne_some, List.mem_iff_getElem?, not_exists]
  exact forall_congr' fun i => not_congr (h id i)

theorem InStep.declares_eq (h : s.InStep) (id : Name) : s.declares id = s.schema.declares id := by
  rw [Bool.eq_iff_iff, declares_iff, declares, Option.isSome_iff_ne_none, Ne, h.lookup_eq_none_iff,
    not_not, List.mem_map]

/-! ### Steps -/

/-- A declaration in the place of one of its name leaves the names as they are. -/
theorem map_id_set {ds : List Declaration} (hi : (ds.map (·.id))[i]? = some d.id) :
    (ds.set i d).map (·.id) = ds.map (·.id) := by
  obtain ⟨hlt, hid⟩ := List.getElem?_eq_some_iff.1 hi
  rw [List.map_set, ← hid, List.set_getElem_self]

theorem put_of_getElem? {ds : List Declaration} (hi : (ds.map (·.id))[i]? = some d.id)
    (hunique : ∀ j, (ds.map (·.id))[j]? = some d.id → j = i) : put d ds = (ds.set i d, ds[i]?) := by
  induction ds generalizing i with
  | nil => simp at hi
  | cons e ds ih =>
    rw [put]
    split_ifs with he
    · obtain rfl : 0 = i := hunique 0 (by simp [he])
      rfl
    · cases i with
      | zero => exact absurd (by simpa using hi) he
      | succ i =>
        have hput := ih (by simpa using hi) fun j hj => by
          have := hunique (j + 1) (by simpa using hj)
          omega
        rw [hput]
        rfl

theorem getElem?_concat_eq_some_iff {α : Type} {l : List α} {a b : α} :
    (l ++ [a])[i]? = some b ↔ l[i]? = some b ∨ i = l.length ∧ a = b := by
  rcases Nat.lt_trichotomy i l.length with hi | rfl | hi
  · simp [List.getElem?_append_left hi, hi.ne]
  · simp
  · have hnone : (l ++ [a])[i]? = none := List.getElem?_eq_none (by simp; omega)
    simp [hnone, List.getElem?_eq_none hi.le, hi.ne']

/-- A declaration is added as without an index, and the index is in step again. -/
theorem InStep.exchange (h : s.InStep) (d : Declaration) : (s.exchange d).1.InStep ∧
    (s.exchange d).1.schema = (s.schema.exchange d).1 ∧
      (s.exchange d).2 = (s.schema.exchange d).2 := by
  unfold Indexed.exchange Schema.exchange
  cases hl : s.index.lookup d.id with
  | some i =>
    have hi := (h d.id i).1 hl
    have hunique : ∀ j, (s.schema.declarations.map (·.id))[j]? = some d.id → j = i := by
      intro j hj
      rw [← h, hl] at hj
      exact (Option.some.inj hj).symm
    rw [put_of_getElem? hi hunique]
    refine ⟨fun id j => ?_, rfl, rfl⟩
    dsimp only
    rw [map_id_set hi]
    exact h id j
  | none =>
    rw [put_of_notMem (h.lookup_eq_none_iff.1 hl)]
    refine ⟨fun id j => ?_, rfl, rfl⟩
    have hnew := h.lookup_eq_none_iff.1 hl
    have hlookup : ((d.id, s.schema.declarations.length) :: s.index).lookup id = some j ↔
        id = d.id ∧ s.schema.declarations.length = j ∨ id ≠ d.id ∧ s.index.lookup id = some j := by
      rw [List.lookup_cons]
      by_cases hid : id = d.id
      · simp [hid]
      · simp [hid, beq_false_of_ne hid]
    rw [hlookup, h id j, List.map_append, List.map_singleton, getElem?_concat_eq_some_iff,
      List.length_map]
    constructor
    · rintro (⟨rfl, rfl⟩ | ⟨-, hj⟩)
      · exact .inr ⟨rfl, rfl⟩
      · exact .inl hj
    · rintro (hj | ⟨rfl, rfl⟩)
      · refine .inr ⟨?_, hj⟩
        rintro rfl
        exact hnew (List.mem_of_getElem? hj)
      · exact .inl ⟨rfl, rfl⟩

theorem InStep.after (h : s.InStep) (c : Change) : (s.after c).1.InStep ∧
    (s.after c).1.schema = (s.schema.after c).1 ∧ (s.after c).2 = (s.schema.after c).2 := by
  cases c with
  | prefixes m => exact ⟨h, rfl, rfl⟩
  | add d => exact h.exchange d

/-! ### Runs -/

theorem inStep_run (changes : List Change) :
    (run changes).InStep ∧ (run changes).schema = Schema.run changes := by
  have hempty : ({} : Indexed).InStep := by
    intro id i
    have hnone : (∅ : Schema).declarations = [] := rfl
    simp [hnone]
  have hfold : ∀ s : Indexed, s.InStep →
      (changes.foldl (fun s c => (s.after c).1) s).InStep ∧
        (changes.foldl (fun s c => (s.after c).1) s).schema =
          changes.foldl (fun s c => (s.after c).1) s.schema := by
    induction changes with
    | nil => exact fun s h => ⟨h, rfl⟩
    | cons c changes ih =>
      intro s h
      obtain ⟨hstep, hschema, -⟩ := h.after c
      rw [List.foldl_cons, List.foldl_cons, ← hschema]
      exact ih _ hstep
  exact hfold {} hempty

theorem InStep.dangling_eq (h : s.InStep) : s.dangling = s.schema.dangling := by
  unfold Indexed.dangling Schema.dangling
  simp only [h.declares_eq]

theorem InStep.check_eq (h : s.InStep) : s.check = s.schema.check := by
  rw [Indexed.check, Schema.check_eq, h.dangling_eq]

end Indexed

/-- The check of a schema reports the first thing that is wrong, after whatever changes and with the
positions of its declarations in an index. -/
theorem check_reports_first : (∀ s : Schema, s.Reported s.check s.dangling) ∧
    ∀ changes : List Change, (Indexed.run changes).schema = run changes ∧
      (run changes).Reported (Indexed.run changes).check (Indexed.run changes).dangling := by
  refine ⟨reported_check, fun changes => ?_⟩
  obtain ⟨hstep, hschema⟩ := Indexed.inStep_run changes
  rw [hstep.check_eq, hstep.dangling_eq, hschema]
  exact ⟨rfl, reported_check _⟩

end TabularShapes.Schema
