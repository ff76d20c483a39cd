import TabularShapes.Proofs.Profile.Grouping

/-! Which shape each row belongs to. A row belongs to the shape that the nearest row at or before it
names, and grouping gives each shape the statements of its rows in their order. After each row, the
shapes so far are those of the rows so far; only a first row without a shape belongs to none. -/

namespace TabularShapes.Profile

def givenNames (rows : List Row) : List String := rows.filterMap (·.shape)

/-- The shape of the row at a position: the one named by the nearest row that names one, at the
position or before it. -/
def shapeAt (rows : List Row) (position : ℕ) : Option String :=
  (givenNames (rows.take (position + 1))).getLast?

def statementsOf (id : String) (rows : List Row) : List Statement :=
  rows.zipIdx.filterMap fun (row, position) =>
    if shapeAt rows position = some id then some row.statement else none

/-- What the rows make of the shape. Label and line are taken from rows that name it themselves. -/
structure Shape.MadeOf (s : Shape) (rows : List Row) : Prop where
  label : s.label = (rowsNaming s.id rows).findSome? (·.shapeLabel)
  statements : s.statements = statementsOf s.id rows
  line : (rowsNaming s.id rows).head?.map (·.statement.line) = some s.line

variable {id : String} {label : Option String} {st : Statement} {shapes : List Shape} {s : Shape}
  {g g' : Grouping} {position : ℕ} {row : Row} {rows done : List Row}

/-! ### One more row -/

theorem givenNames_concat (rows : List Row) (row : Row) :
    givenNames (rows ++ [row]) = givenNames rows ++ row.shape.toList := by
  rw [givenNames, List.filterMap_append, List.filterMap_cons, List.filterMap_nil]
  cases row.shape <;> rfl

theorem getLast?_givenNames_concat (rows : List Row) (row : Row) :
    (givenNames (rows ++ [row])).getLast? = row.shape.or (givenNames rows).getLast? := by
  rw [givenNames_concat, List.getLast?_append]
  cases row.shape <;> rfl

theorem rowsNaming_concat (id : String) (rows : List Row) (row : Row) :
    rowsNaming id (rows ++ [row]) =
      rowsNaming id rows ++ if row.shape = some id then [row] else [] := by
  by_cases h : row.shape = some id <;> simp [rowsNaming, h]

theorem rowsNaming_of_notMem (h : id ∉ givenNames rows) : rowsNaming id rows = [] := by
  rw [rowsNaming, List.filter_eq_nil_iff]
  intro row hrow hshape
  exact h (List.mem_filterMap.2 ⟨row, hrow, by simpa using hshape⟩)

theorem mem_givenNames_of_shapeAt (h : shapeAt rows position = some id) : id ∈ givenNames rows := by
  have hmem := List.mem_of_getLast? h
  exact ((List.take_sublist _ rows).filterMap _).subset hmem

theorem statementsOf_of_notMem (h : id ∉ givenNames rows) : statementsOf id rows = [] := by
  rw [statementsOf, List.filterMap_eq_nil_iff]
  rintro ⟨row, position⟩ -
  exact if_neg fun hat => h (mem_givenNames_of_shapeAt hat)

/-- The rows before keep their shapes, and the new one has the last name that is given. -/
theorem statementsOf_concat (id : String) (rows : List Row) (row : Row) :
    statementsOf id (rows ++ [row]) = statementsOf id rows ++
      if row.shape.or (givenNames rows).getLast? = some id then [row.statement] else [] := by
  have hbefore : ∀ p ∈ rows.zipIdx, shapeAt (rows ++ [row]) p.2 = shapeAt rows p.2 := by
    intro p hp
    obtain ⟨-, hlt, -⟩ := List.mem_zipIdx hp
    rw [shapeAt, shapeAt, List.take_append_of_le_length (by omega)]
  have hlast : shapeAt (rows ++ [row]) rows.length =
      row.shape.or (givenNames rows).getLast? := by
    rw [shapeAt, List.take_of_length_le (by simp), getLast?_givenNames_concat]
  rw [statementsOf, List.zipIdx_append, List.filterMap_append, Nat.zero_add, List.zipIdx_singleton]
  congr 1
  · refine List.filterMap_congr ?_
    intro p hp
    simp only [hbefore p hp]
  · by_cases h : row.shape.or (givenNames rows).getLast? = some id <;> simp [hlast, h]

/-! ### Shapes so far -/

/-- What holds of shapes so far: they are those of the rows so far, and a row without a name goes on
with the last name that was given. -/
structure Grouping.MadeOf (g : Grouping) (rows : List Row) : Prop where
  ids : g.shapes.map (·.id) = (givenNames rows).eraseDups
  nodup : (g.shapes.map (·.id)).Nodup
  current : g.current = (givenNames rows).getLast?
  shapes : ∀ s ∈ g.shapes, s.MadeOf rows
  perm : (g.shapes.flatMap (·.statements)).Perm (rows.map (·.statement))

theorem perm_addStatement (id : String) (label : Option String) (st : Statement)
    (shapes : List Shape) : ((addStatement id label st shapes).flatMap (·.statements)).Perm
      (shapes.flatMap (·.statements) ++ [st]) := by
  induction shapes with
  | nil => exact .refl _
  | cons s rest ih =>
    rw [addStatement]
    split
    · simp only [List.flatMap_cons, List.append_assoc]
      exact List.perm_append_comm.append_left _
    · simp only [List.flatMap_cons, List.append_assoc]
      exact ih.append_left _

theorem Grouping.MadeOf.mem_ids_iff (h : g.MadeOf rows) :
    id ∈ g.shapes.map (·.id) ↔ id ∈ givenNames rows := by
  rw [h.ids, List.mem_eraseDups]

/-- A row adds nothing to the shapes that it does not belong to. -/
theorem Shape.MadeOf.concat_of_ne (h : s.MadeOf rows)
    (hrow : row.shape.or (givenNames rows).getLast? = some id) (hne : id ≠ s.id) :
    s.MadeOf (rows ++ [row]) := by
  have hshape : row.shape ≠ some s.id := by
    intro hs
    rw [hs, Option.some_or] at hrow
    exact hne (Option.some.inj hrow).symm
  have hnaming : rowsNaming s.id (rows ++ [row]) = rowsNaming s.id rows := by
    rw [rowsNaming_concat, if_neg hshape, List.append_nil]
  have hstatements : statementsOf s.id (rows ++ [row]) = statementsOf s.id rows := by
    rw [statementsOf_concat, hrow, if_neg (by simpa using hne), List.append_nil]
  constructor
  · rw [hnaming]
    exact h.label
  · rw [hstatements]
    exact h.statements
  · rw [hnaming]
    exact h.line

theorem madeOf_open (hnew : id ∉ givenNames rows) (hshape : row.shape = some id) :
    Shape.MadeOf ⟨id, row.shapeLabel, [row.statement], row.statement.line⟩ (rows ++ [row]) := by
  have hnaming : rowsNaming id (rows ++ [row]) = [row] := by
    rw [rowsNaming_concat, if_pos hshape, rowsNaming_of_notMem hnew, List.nil_append]
  constructor
  · rw [hnaming]
    simp
  · rw [statementsOf_concat, hshape, statementsOf_of_notMem hnew]
    simp
  · rw [hnaming]
    rfl

/-- A shape that is there goes on with the statement, and takes the label only from a row that names
it. -/
theorem Shape.MadeOf.concat_of_eq (h : s.MadeOf rows)
    (hrow : row.shape.or (givenNames rows).getLast? = some s.id) :
    Shape.MadeOf { s with
      label := s.label.or (row.shape.bind fun _ => row.shapeLabel)
      statements := s.statements ++ [row.statement] } (rows ++ [row]) := by
  have hstatements : statementsOf s.id (rows ++ [row]) =
      statementsOf s.id rows ++ [row.statement] := by
    rw [statementsOf_concat, if_pos hrow]
  obtain ⟨first, hfirst, hline⟩ := Option.map_eq_some_iff.1 h.line
  constructor
  · rw [rowsNaming_concat, List.findSome?_append, ← h.label]
    rcases Option.or_eq_some_iff.1 hrow with hshape | ⟨hshape, -⟩ <;> simp [hshape]
  · rw [hstatements, ← h.statements]
  · rw [rowsNaming_concat, List.head?_append, hfirst]
    exact congrArg some hline

/-- The shape that the row belongs to, which may be new. -/
theorem Grouping.MadeOf.madeOf_grow (h : g.MadeOf rows)
    (hid : row.shape.or (givenNames rows).getLast? = some id) :
    (grow id (row.shape.bind fun _ => row.shapeLabel) row.statement
      (g.shapes.find? (·.id == id))).MadeOf (rows ++ [row]) := by
  cases hfound : g.shapes.find? (·.id == id) with
  | none =>
    have hnew : id ∉ givenNames rows := by
      rw [← h.mem_ids_iff]
      intro hmem
      obtain ⟨t, ht, htid⟩ := List.mem_map.1 hmem
      exact List.find?_eq_none.1 hfound t ht (beq_iff_eq.2 htid)
    rcases Option.or_eq_some_iff.1 hid with hshape | ⟨-, hlast⟩
    · rw [hshape, Option.bind_some]
      exact madeOf_open hnew hshape
    · exact absurd (List.mem_of_getLast? hlast) hnew
  | some t =>
    obtain rfl : t.id = id := by simpa using List.find?_some hfound
    exact (h.shapes t (List.mem_of_find?_eq_some hfound)).concat_of_eq hid

theorem Grouping.MadeOf.add (h : g.MadeOf rows) (hadd : g.add position row = .ok g') :
    g'.MadeOf (rows ++ [row]) := by
  obtain ⟨id, hid, rfl⟩ := add_eq_ok_iff.1 hadd
  rw [h.current] at hid
  have hnodup : ((addStatement id (row.shape.bind fun _ => row.shapeLabel) row.statement
      g.shapes).map (·.id)).Nodup := nodup_addStatement h.nodup
  refine ⟨?_, hnodup, ?_, ?_, ?_⟩
  · simp only [map_id_addStatement, h.ids, List.mem_eraseDups, givenNames_concat]
    rcases Option.or_eq_some_iff.1 hid with hshape | ⟨hshape, hlast⟩
    · rw [hshape, Option.toList_some, eraseDups_concat]
    · rw [hshape, Option.toList_none, List.append_nil, if_pos (List.mem_of_getLast? hlast)]
  · rw [getLast?_givenNames_concat, hid]
  · intro s hs
    -- the names are different, so that `s` is what the search for its name gives
    have hfind := (mem_iff_find? hnodup).1 hs
    rw [find?_addStatement] at hfind
    split at hfind
    · next hkey =>
      rw [← hkey] at hfind
      obtain rfl := Option.some.inj hfind
      exact h.madeOf_grow hid
    · next hkey =>
      exact (h.shapes s ((mem_iff_find? h.nodup).2 hfind)).concat_of_ne hid hkey
  · rw [List.map_append]
    exact (perm_addStatement _ _ _ _).trans (h.perm.append_right _)

/-! ### All rows -/

theorem Grouping.MadeOf.addAll (h : g.MadeOf done) (hadd : g.addAll position rows = .ok g') :
    g'.MadeOf (done ++ rows) := by
  induction rows generalizing g done position with
  | nil =>
    cases hadd
    rwa [List.append_nil]
  | cons row rest ih =>
    obtain ⟨g₁, hg₁, hrest⟩ := addAll_cons_eq_ok_iff.1 hadd
    have hall := ih (h.add hg₁) hrest
    rwa [List.append_assoc, List.singleton_append] at hall

theorem madeOf_nil : Grouping.MadeOf {} [] :=
  ⟨rfl, List.nodup_nil, rfl, by simp, .refl _⟩

theorem exists_addAll_of_current (h : g.current = some id) (position : ℕ) (rows : List Row) :
    ∃ g', g.addAll position rows = .ok g' := by
  induction rows generalizing g id position with
  | nil => exact ⟨g, rfl⟩
  | cons row rest ih =>
    obtain ⟨id', hid'⟩ : ∃ id', row.shape.or g.current = some id' := by
      rw [h]
      cases row.shape <;> simp
    obtain ⟨g', hg'⟩ := ih (g := ⟨_, some id'⟩) rfl (position + 1)
    exact ⟨g', addAll_cons_eq_ok_iff.2 ⟨_, add_eq_ok_iff.2 ⟨id', hid', rfl⟩, hg'⟩⟩

theorem groupRows_eq_error_iff {e : OrphanRow} : groupRows rows = .error e ↔
    ∃ row rest, rows = row :: rest ∧ row.shape = none ∧ e = ⟨0, row.statement.line⟩ := by
  rw [groupRows, map_eq_error_iff]
  cases rows with
  | nil => simp [Grouping.addAll]
  | cons row rest =>
    rw [Grouping.addAll, bind_eq_error_iff]
    cases hshape : row.shape with
    | none =>
      have hfail : Grouping.add {} 0 row = .error ⟨0, row.statement.line⟩ := by
        simp [Grouping.add, hshape]
      simp [hfail, hshape, eq_comm]
    | some id =>
      have hadd : Grouping.add {} 0 row =
          .ok ⟨addStatement id row.shapeLabel row.statement [], some id⟩ := by
        simp [Grouping.add, hshape]
      obtain ⟨g', hg'⟩ := exists_addAll_of_current
        (g := ⟨addStatement id row.shapeLabel row.statement [], some id⟩) rfl 1 rest
      simp [hadd, hg', hshape]

theorem result_group (rows : List Row) : (group rows).result = groupRows rows := by
  cases h : groupRows rows <;> simp [group, h] <;> rfl

/-- Grouping fails if the first row names no shape, and else makes one shape for each name that is
given, in the order in which the names appear first. The statements of each shape are those of the
rows that belong to it, so that all together they are the statements of all rows. -/
theorem group_partitions (rows : List Row) :
    (∀ e, (group rows).result = .error e ↔
      ∃ row rest, rows = row :: rest ∧ row.shape = none ∧ e = ⟨0, row.statement.line⟩) ∧
    ∀ shapes, (group rows).result = .ok shapes →
      shapes.map (·.id) = (givenNames rows).eraseDups ∧ (shapes.map (·.id)).Nodup ∧
      (∀ s ∈ shapes, s.MadeOf rows) ∧
      (shapes.flatMap (·.statements)).Perm (rows.map (·.statement)) := by
  rw [result_group]
  refine ⟨fun e => groupRows_eq_error_iff, ?_⟩
  intro shapes h
  obtain ⟨g, hg, rfl⟩ := map_eq_ok_iff.1 h
  have hmade : g.MadeOf rows := madeOf_nil.addAll hg
  exact ⟨hmade.ids, hmade.nodup, hmade.shapes, hmade.perm⟩

/-- Two shapes that take turns: the first is come back to and gets its label late, the second has an
empty label. Labels on rows that name no shape do not count. -/
def takingTurns : List Row :=
  [{ shape := some "A", statement := { property := "p", line := 2 } },
    { shapeLabel := some "a", statement := { property := "q", line := 3 } },
    { shape := some "B", shapeLabel := some "", statement := { property := "r", line := 5 } },
    { shape := some "A", shapeLabel := some "late", statement := { property := "s", line := 6 } },
    { statement := { property := "t", line := 7 } },
    { shape := some "B", shapeLabel := some "b", statement := { property := "u", line := 8 } }]

theorem group_partitions_of_takingTurns :
    (∃ shapes, (group takingTurns).result = .ok shapes ∧
      shapes.map (fun s => (s.id, s.label, s.line, s.statements.map (·.property))) =
        [("A", some "late", 2, ["p", "q", "s", "t"]), ("B", some "", 5, ["r", "u"])] ∧
      (∀ s ∈ shapes, s.MadeOf takingTurns) ∧
      (shapes.flatMap (·.statements)).Perm (takingTurns.map (·.statement))) ∧
    (group (takingTurns.drop 1)).result = .error ⟨0, 3⟩ := by
  obtain ⟨-, hshapes⟩ := group_partitions takingTurns
  obtain ⟨hfails, -⟩ := group_partitions (takingTurns.drop 1)
  have hok : ∃ shapes, (group takingTurns).result = .ok shapes ∧
      shapes.map (fun s => (s.id, s.label, s.line, s.statements.map (·.property))) =
        [("A", some "late", 2, ["p", "q", "s", "t"]), ("B", some "", 5, ["r", "u"])] :=
    ⟨_, rfl, by decide⟩
  obtain ⟨shapes, hgroup, hlook⟩ := hok
  obtain ⟨-, -, hmade, hperm⟩ := hshapes shapes hgroup
  exact ⟨⟨shapes, hgroup, hlook, hmade, hperm⟩, (hfails _).2 ⟨_, _, rfl, rfl, rfl⟩⟩

end TabularShapes.Profile
