import TabularShapes.Proofs.Profile.Grouping
import TabularShapes.Proofs.Profile.Writing
import Mathlib.Data.List.DropRight

/-! What a reader leaves of the texts in a table. Each is there without the white space around it, or
it is not there at all. Shapes are made of such rows, and none of them is without a statement. -/

namespace TabularShapes.Text

theorem trimChars_eq (cs : List Char) :
    trimChars cs = (cs.dropWhile isBlank).rdropWhile isBlank := rfl

/-- The start of a text that does not start with white space does not either. -/
theorem dropWhile_of_prefix {p : Char → Bool} {cs ds : List Char} (h : cs <+: ds.dropWhile p) :
    cs.dropWhile p = cs := by
  cases cs with
  | nil => rfl
  | cons c cs =>
    obtain ⟨rest, hrest⟩ := h
    refine List.dropWhile_cons_of_neg ?_
    have hhead := List.head?_dropWhile_not p ds
    rw [← hrest] at hhead
    simpa using hhead

theorem trimChars_trimChars (cs : List Char) : trimChars (trimChars cs) = trimChars cs := by
  rw [trimChars_eq, trimChars_eq, dropWhile_of_prefix (List.rdropWhile_prefix isBlank _),
    List.rdropWhile_idempotent]

theorem trim_trim (s : String) : trim (trim s) = trim s := by
  rw [trim, trim, String.toList_ofList, trimChars_trimChars]

end TabularShapes.Text

namespace TabularShapes.Profile

open Table (Dialect Record Source)

/-! ### Rows -/

variable {h : Header} {fields : List String} {c : Column} {t : String} {line : Nat} {row : Row}
  {rows : List Row}

theorem isTrimmed_of_cell (hcell : h.cell fields c = some t) : IsTrimmed t := by
  obtain ⟨htext, hne⟩ := Option.filter_eq_some_iff.1 hcell
  obtain ⟨f, -, rfl⟩ := Option.map_eq_some_iff.1 htext
  exact ⟨Text.trim_trim f, by simpa using hne⟩

theorem row_eq_ok (hrow : h.row line fields = .ok row) :
    some row.statement.property = h.cell fields .propertyId ∧
      row.shape = h.cell fields .shapeId ∧ row.shapeLabel = h.cell fields .shapeLabel ∧
      row.statement.label = h.cell fields .propertyLabel ∧
      row.statement.datatype = h.cell fields .valueDatatype ∧
      row.statement.valueShape = h.cell fields .valueShape := by
  rw [Header.row] at hrow
  split at hrow
  · next property hproperty =>
    obtain ⟨kind, -, hrow⟩ := bind_eq_ok_iff.1 hrow
    obtain ⟨mandatory, -, hrow⟩ := bind_eq_ok_iff.1 hrow
    obtain ⟨repeatable, -, hrow⟩ := bind_eq_ok_iff.1 hrow
    cases hrow
    exact ⟨hproperty.symm, rfl, rfl, rfl, rfl, rfl⟩
  · cases hrow

theorem clean_of_row (hrow : h.row line fields = .ok row) : row.Clean := by
  obtain ⟨hproperty, hshape, hshapeLabel, hlabel, hdatatype, hvalueShape⟩ := row_eq_ok hrow
  refine ⟨isTrimmed_of_cell hproperty.symm, ?_⟩
  intro t ht
  rw [hshape, hshapeLabel, hlabel, hdatatype, hvalueShape] at ht
  simp only [List.mem_cons, List.not_mem_nil, or_false] at ht
  rcases ht with ht | ht | ht | ht | ht <;> exact isTrimmed_of_cell ht.symm

theorem clean_of_rowsOf {failure : Option String} {records : List Record}
    (hrows : (rowsOf h failure records).result = .ok rows) : ∀ row ∈ rows, row.Clean := by
  induction records generalizing rows with
  | nil =>
    simp only [rowsOf, Traced.result_bind, Traced.result_pure, bind_eq_ok_iff] at hrows
    obtain ⟨-, -, hrows⟩ := hrows
    cases hrows
    simp
  | cons r rest ih =>
    simp only [rowsOf, Traced.result_bind, bind_eq_ok_iff] at hrows
    obtain ⟨fields, -, hrows⟩ := hrows
    split at hrows
    · exact ih hrows
    · simp only [Traced.result_bind, Traced.result_pure, bind_eq_ok_iff] at hrows
      obtain ⟨row, hrow, -, -, rows', hrest, hcons⟩ := hrows
      cases hcons
      exact List.forall_mem_cons.2 ⟨clean_of_row hrow, ih hrest⟩

theorem clean_of_read {d : Dialect} {source : Source}
    (hread : (read d source).result = .ok rows) : ∀ row ∈ rows, row.Clean := by
  simp only [read, Traced.result_bind, Traced.result_pure, bind_eq_ok_iff] at hread
  obtain ⟨⟨h, records⟩, -, rows', hrows, -, -, heq⟩ := hread
  cases heq
  exact clean_of_rowsOf hrows

/-! ### Shapes -/

structure Statement.Clean (st : Statement) : Prop where
  property : IsTrimmed st.property
  optional : ∀ t, some t ∈ [st.label, st.datatype, st.valueShape] → IsTrimmed t

theorem Row.Clean.statement (h : row.Clean) : row.statement.Clean :=
  ⟨h.property, fun t ht => h.optional t (by simp only [List.mem_cons] at ht ⊢; tauto)⟩

/-- A shape that was opened by one of its statements, with trimmed texts. -/
structure Shape.Clean (s : Shape) : Prop where
  id : IsTrimmed s.id
  label : ∀ t, s.label = some t → IsTrimmed t
  opened : ∃ st rest, s.statements = st :: rest ∧ s.line = st.line
  statements : ∀ st ∈ s.statements, st.Clean

variable {id : String} {label : Option String} {st : Statement} {shapes : List Shape}
  {g g' : Grouping} {position : Nat}

theorem clean_addStatement (hid : IsTrimmed id) (hlabel : ∀ t, label = some t → IsTrimmed t)
    (hst : st.Clean) (h : ∀ s ∈ shapes, s.Clean) :
    ∀ s ∈ addStatement id label st shapes, s.Clean := by
  induction shapes with
  | nil =>
    have hopened : Shape.Clean ⟨id, label, [st], st.line⟩ :=
      ⟨hid, hlabel, ⟨st, [], rfl, rfl⟩, List.forall_mem_singleton.2 hst⟩
    exact List.forall_mem_singleton.2 hopened
  | cons s rest ih =>
    obtain ⟨hs, hrest⟩ := List.forall_mem_cons.1 h
    rw [addStatement]
    split
    · refine List.forall_mem_cons.2 ⟨⟨hs.id, ?_, ?_, ?_⟩, hrest⟩
      · intro t ht
        rcases Option.or_eq_some_iff.1 ht with ht | ⟨-, ht⟩
        · exact hs.label t ht
        · exact hlabel t ht
      · obtain ⟨first, more, hmore, hline⟩ := hs.opened
        exact ⟨first, more ++ [st], by simp [hmore], hline⟩
      · exact List.forall_mem_append.2 ⟨hs.statements, List.forall_mem_singleton.2 hst⟩
    · exact List.forall_mem_cons.2 ⟨hs, ih hrest⟩

/-- What holds of shapes so far: they are clean, and so is the name of the one to go on with. -/
structure Grouping.Clean (g : Grouping) : Prop where
  shapes : ∀ s ∈ g.shapes, s.Clean
  current : ∀ id, g.current = some id → IsTrimmed id

theorem Grouping.Clean.add (h : g.Clean) (hrow : row.Clean) (hadd : g.add position row = .ok g') :
    g'.Clean := by
  obtain ⟨id, hid, rfl⟩ := add_eq_ok_iff.1 hadd
  have hname : IsTrimmed id := by
    rcases Option.or_eq_some_iff.1 hid with hid | ⟨-, hid⟩
    · exact hrow.optional id (by simp [hid])
    · exact h.current id hid
  refine ⟨clean_addStatement hname ?_ hrow.statement h.shapes, ?_⟩
  · intro t ht
    obtain ⟨-, -, ht⟩ := Option.bind_eq_some_iff.1 ht
    exact hrow.optional t (by simp [ht])
  · intro id' hid'
    cases hid'
    exact hname

theorem Grouping.Clean.addAll (h : g.Clean) (hrows : ∀ row ∈ rows, row.Clean)
    (hadd : g.addAll position rows = .ok g') : g'.Clean := by
  induction rows generalizing g position with
  | nil =>
    cases hadd
    exact h
  | cons row rest ih =>
    obtain ⟨hrow, hrest⟩ := List.forall_mem_cons.1 hrows
    obtain ⟨g₁, hg₁, hadd⟩ := addAll_cons_eq_ok_iff.1 hadd
    exact ih (h.add hrow hg₁) hrest hadd

theorem clean_of_groupRows (hrows : ∀ row ∈ rows, row.Clean) (h : groupRows rows = .ok shapes) :
    ∀ s ∈ shapes, s.Clean := by
  obtain ⟨g, hg, rfl⟩ := map_eq_ok_iff.1 h
  have hempty : Grouping.Clean {} := ⟨by simp, by simp⟩
  exact (hempty.addAll hrows hg).shapes

end TabularShapes.Profile
