import TabularShapes.Profile.Shape
import TabularShapes.Proofs.Outcome
import Mathlib.Data.List.Nodup
import Mathlib.Data.List.Perm.Basic

/-! What rows are grouped into. No two shapes have the same name, and where every row names its
shape, a shape depends on the rows that name it and on nothing else, so that tables which interleave
the same rows shape by shape have the same shapes, apart from their order. -/

namespace TabularShapes.Profile

variable {id key : String} {label : Option String} {st : Statement} {shapes : List Shape}
  {g g' : Grouping} {position : Nat} {row : Row} {rows rows' : List Row}

/-- What becomes of a shape, if it is there already, when a statement is added to it. -/
def grow (id : String) (label : Option String) (st : Statement) : Option Shape → Shape
  | none => ⟨id, label, [st], st.line⟩
  | some s => { s with label := s.label.or label, statements := s.statements ++ [st] }

theorem find?_addStatement (id key : String) (label : Option String) (st : Statement)
    (shapes : List Shape) :
    (addStatement id label st shapes).find? (·.id == key) =
      if id = key then some (grow id label st (shapes.find? (·.id == key)))
      else shapes.find? (·.id == key) := by
  induction shapes with
  | nil =>
    by_cases hkey : id = key
    · simp [addStatement, grow, hkey]
    · simp [addStatement, hkey]
  | cons s rest ih =>
    by_cases hs : s.id = id
    · by_cases hkey : id = key
      · simp [addStatement, grow, hs, hkey]
      · simp [addStatement, hs, hkey]
    · have hadd : addStatement id label st (s :: rest) = s :: addStatement id label st rest :=
        if_neg hs
      rw [hadd, List.find?_cons, List.find?_cons, ih]
      by_cases hkey : id = key
      · subst hkey
        simp [beq_false_of_ne hs]
      · simp only [hkey, if_false]

theorem map_id_addStatement (id : String) (label : Option String) (st : Statement)
    (shapes : List Shape) :
    (addStatement id label st shapes).map (·.id) =
      if id ∈ shapes.map (·.id) then shapes.map (·.id) else shapes.map (·.id) ++ [id] := by
  induction shapes with
  | nil => simp [addStatement]
  | cons s rest ih =>
    by_cases hs : s.id = id
    · simp [addStatement, hs]
    · simp only [addStatement, hs, if_false, List.map_cons, ih, List.mem_cons, Ne.symm hs,
        false_or]
      split <;> rfl

theorem nodup_addStatement (h : (shapes.map (·.id)).Nodup) :
    ((addStatement id label st shapes).map (·.id)).Nodup := by
  rw [map_id_addStatement]
  split
  · exact h
  · next hid =>
    rw [List.nodup_append]
    refine ⟨h, List.nodup_singleton id, ?_⟩
    intro a ha b hb hab
    rw [List.mem_singleton.1 hb] at hab
    exact hid (hab ▸ ha)

theorem add_eq_ok_iff : g.add position row = .ok g' ↔ ∃ id, row.shape.or g.current = some id ∧
    g' = ⟨addStatement id (row.shape.bind fun _ => row.shapeLabel) row.statement g.shapes,
      some id⟩ := by
  unfold Grouping.add
  cases row.shape with
  | some id => simp [eq_comm]
  | none =>
    cases g.current with
    | some id => simp [eq_comm]
    | none => simp

theorem addAll_cons_eq_ok_iff : g.addAll position (row :: rows) = .ok g' ↔
    ∃ g₁, g.add position row = .ok g₁ ∧ g₁.addAll (position + 1) rows = .ok g' := by
  simp only [Grouping.addAll, bind_eq_ok_iff]

theorem nodup_addAll (h : (g.shapes.map (·.id)).Nodup) (hg : g.addAll position rows = .ok g') :
    (g'.shapes.map (·.id)).Nodup := by
  induction rows generalizing g position with
  | nil =>
    cases hg
    exact h
  | cons row rest ih =>
    obtain ⟨g₁, hrow, hrest⟩ := addAll_cons_eq_ok_iff.1 hg
    obtain ⟨id, -, rfl⟩ := add_eq_ok_iff.1 hrow
    exact ih (nodup_addStatement h) hrest

theorem nodup_groupRows (h : groupRows rows = .ok shapes) : (shapes.map (·.id)).Nodup := by
  obtain ⟨g, hg, rfl⟩ := map_eq_ok_iff.1 h
  exact nodup_addAll (g := {}) List.nodup_nil hg

/-! ### Rows that name their shapes -/

def Named (rows : List Row) : Prop := ∀ row ∈ rows, ∃ id, row.shape = some id

def rowsNaming (id : String) (rows : List Row) : List Row := rows.filter (·.shape == some id)

/-- What rows make of the shape that they all name. -/
def gather (id : String) (rows : List Row) (s : Option Shape) : Option Shape :=
  rows.foldl (fun s row => some (grow id row.shapeLabel row.statement s)) s

theorem exists_addAll_of_named (h : Named rows) (g : Grouping) (position : Nat) :
    ∃ g', g.addAll position rows = .ok g' := by
  induction rows generalizing g position with
  | nil => exact ⟨g, rfl⟩
  | cons row rest ih =>
    obtain ⟨id, hid⟩ := h row List.mem_cons_self
    have hrow : g.add position row = .ok
        ⟨addStatement id row.shapeLabel row.statement g.shapes, some id⟩ :=
      add_eq_ok_iff.2 ⟨id, by simp [hid], by simp [hid]⟩
    obtain ⟨g', hg'⟩ := ih (fun r hr => h r (List.mem_cons_of_mem _ hr)) _ (position + 1)
    exact ⟨g', addAll_cons_eq_ok_iff.2 ⟨_, hrow, hg'⟩⟩

theorem find?_addAll (h : Named rows) (hg : g.addAll position rows = .ok g') (key : String) :
    g'.shapes.find? (·.id == key) =
      gather key (rowsNaming key rows) (g.shapes.find? (·.id == key)) := by
  induction rows generalizing g position with
  | nil =>
    cases hg
    rfl
  | cons row rest ih =>
    obtain ⟨id, hid⟩ := h row List.mem_cons_self
    obtain ⟨g₁, hrow, hrest⟩ := addAll_cons_eq_ok_iff.1 hg
    obtain ⟨id', hid', rfl⟩ := add_eq_ok_iff.1 hrow
    obtain rfl : id = id' := by simpa [hid] using hid'
    rw [ih (fun r hr => h r (List.mem_cons_of_mem _ hr)) hrest, find?_addStatement]
    by_cases hkey : id = key
    · simp [rowsNaming, gather, hid, hkey]
    · simp [rowsNaming, hid, hkey]

theorem find?_groupRows (h : Named rows) (hs : groupRows rows = .ok shapes) (key : String) :
    shapes.find? (·.id == key) = gather key (rowsNaming key rows) none := by
  obtain ⟨g, hg, rfl⟩ := map_eq_ok_iff.1 hs
  exact find?_addAll h hg key

/-! ### Lines -/

def Statement.unlined (st : Statement) : Statement := { st with line := 0 }

def Row.unlined (row : Row) : Row := { row with statement := row.statement.unlined }

def Shape.unlined (s : Shape) : Shape :=
  { s with statements := s.statements.map Statement.unlined, line := 0 }

theorem grow_unlined (id : String) (label : Option String) (st : Statement) (s : Option Shape) :
    (grow id label st s).unlined = grow id label st.unlined (s.map Shape.unlined) := by
  cases s <;> simp [grow, Shape.unlined, Statement.unlined]

theorem gather_unlined (id : String) (rows : List Row) (s : Option Shape) :
    (gather id rows s).map Shape.unlined =
      gather id (rows.map Row.unlined) (s.map Shape.unlined) := by
  induction rows generalizing s with
  | nil => rfl
  | cons row rest ih =>
    have hrow : (some (grow id row.shapeLabel row.statement s)).map Shape.unlined =
        some (grow id row.shapeLabel row.statement.unlined (s.map Shape.unlined)) :=
      congrArg some (grow_unlined _ _ _ _)
    unfold gather at ih ⊢
    rw [List.map_cons, List.foldl_cons, List.foldl_cons, ih, hrow]
    rfl

theorem find?_unlined (shapes : List Shape) (key : String) :
    (shapes.map Shape.unlined).find? (·.id == key) =
      (shapes.find? (·.id == key)).map Shape.unlined :=
  List.find?_map

/-! ### Tables that interleave the same rows -/

/-- The rows that name a shape are the same in both tables and stand in the same order, whatever
lines they stand on. -/
def SameByShape (rows rows' : List Row) : Prop :=
  ∀ id, (rowsNaming id rows).map Row.unlined = (rowsNaming id rows').map Row.unlined

theorem perm_of_find?_eq {shapes' : List Shape} (h : (shapes.map (·.id)).Nodup)
    (h' : (shapes'.map (·.id)).Nodup)
    (hf : ∀ key, shapes.find? (·.id == key) = shapes'.find? (·.id == key)) :
    shapes.Perm shapes' := by
  rw [List.perm_ext_iff_of_nodup h.of_map h'.of_map]
  intro s
  rw [mem_iff_find? h, mem_iff_find? h', hf]

/-- Tables of the same rows, shape by shape, have the same shapes. -/
theorem groupRows_perm (h : Named rows) (h' : Named rows') (hsame : SameByShape rows rows') :
    ∃ shapes shapes', groupRows rows = .ok shapes ∧ groupRows rows' = .ok shapes' ∧
      (shapes.map Shape.unlined).Perm (shapes'.map Shape.unlined) := by
  obtain ⟨g, hg⟩ := exists_addAll_of_named h {} 0
  obtain ⟨g', hg'⟩ := exists_addAll_of_named h' {} 0
  have hs : groupRows rows = .ok g.shapes := map_eq_ok_iff.2 ⟨g, hg, rfl⟩
  have hs' : groupRows rows' = .ok g'.shapes := map_eq_ok_iff.2 ⟨g', hg', rfl⟩
  refine ⟨g.shapes, g'.shapes, hs, hs', perm_of_find?_eq ?_ ?_ ?_⟩
  · rw [List.map_map]
    exact nodup_groupRows hs
  · rw [List.map_map]
    exact nodup_groupRows hs'
  · intro key
    rw [find?_unlined, find?_unlined, find?_groupRows h hs, find?_groupRows h' hs',
      gather_unlined, gather_unlined, hsame]

end TabularShapes.Profile
