import TabularShapes.Proofs.Compile.Datatypes
import TabularShapes.Proofs.Compile.Dropping

/-! Which error a compilation ends with. The places of a profile where something can be wrong are the
names of its shapes, in order, and then the statements of one shape after the other: in each the name
of the property, the columns about values together, the kind of node, the name in the column, and
what a reference refers to. A compilation reports the first place that offends. -/

namespace TabularShapes.Compiler

open Profile (occurrences)

variable {c : Compiler} {table : ShapeTable} {shapes earlier : List Profile.Shape}
  {s : Profile.Shape} {st : Profile.Statement} {e : CompileError}

/-- A place of a profile where something can be wrong. The name of a shape may clash with those of
the shapes before it. -/
inductive Place
  | shape (earlier : List Profile.Shape) (s : Profile.Shape)
  | property (s : Profile.Shape) (st : Profile.Statement)
  | columns (s : Profile.Shape) (st : Profile.Statement)
  | nodeKind (s : Profile.Shape) (st : Profile.Statement)
  | valueName (s : Profile.Shape) (st : Profile.Statement)
  | reference (s : Profile.Shape) (st : Profile.Statement)

/-- The names of the shapes in order, with the shapes before each. -/
def namePlaces (earlier : List Profile.Shape) : List Profile.Shape → List Place
  | [] => []
  | s :: rest => .shape earlier s :: namePlaces (earlier ++ [s]) rest

/-- The places of a statement about the values of its property. -/
def valuePlaces (s : Profile.Shape) (st : Profile.Statement) : List Place :=
  [.columns s st, .nodeKind s st, .valueName s st, .reference s st]

def statementPlaces (o : Profile.Shape × Profile.Statement) : List Place :=
  .property o.1 o.2 :: valuePlaces o.1 o.2

def places (shapes : List Profile.Shape) : List Place :=
  namePlaces [] shapes ++ (occurrences shapes).flatMap statementPlaces

inductive Offends (c : Compiler) (shapes : List Profile.Shape) : Place → CompileError → Prop
  | name {earlier : List Profile.Shape} {s : Profile.Shape} {e : CompileError}
      (h : c.NameFault s.id e) : Offends c shapes (.shape earlier s) e
  | repeated {earlier : List Profile.Shape} {s t : Profile.Shape} {iri : String}
      (h : c.iri? s.id = some iri) (ht : t ∈ earlier) (hti : c.iri? t.id = some iri) :
      Offends c shapes (.shape earlier s) (.duplicateShape s.id s.line)
  | property {s : Profile.Shape} {st : Profile.Statement} {e : CompileError}
      (h : c.NameFault st.property e) : Offends c shapes (.property s st) e
  | columns {s : Profile.Shape} {st : Profile.Statement} (hd : st.datatype.isSome)
      (hv : st.valueShape.isSome) :
      Offends c shapes (.columns s st) (.conflictingValue s.id st.property st.line)
  | datatypeKind {s : Profile.Shape} {st : Profile.Statement} {kind : NodeKind}
      (hd : st.datatype.isSome) (hk : st.nodeKind = some kind) (hl : kind ≠ .literal) :
      Offends c shapes (.nodeKind s st) (.incompatibleKind s.id st.property kind st.line)
  | referenceKind {s : Profile.Shape} {st : Profile.Statement} (hv : st.valueShape.isSome)
      (hk : st.nodeKind = some .literal) :
      Offends c shapes (.nodeKind s st) (.incompatibleKind s.id st.property .literal st.line)
  | datatype {s : Profile.Shape} {st : Profile.Statement} {text : String} {e : CompileError}
      (hd : st.datatype = some text) (h : c.DatatypeFault text e) :
      Offends c shapes (.valueName s st) e
  | reference {s : Profile.Shape} {st : Profile.Statement} {text : String} {e : CompileError}
      (hv : st.valueShape = some text) (h : c.NameFault text e) :
      Offends c shapes (.valueName s st) e
  | dangling {s : Profile.Shape} {st : Profile.Statement} {text iri : String}
      (hv : st.valueShape = some text) (hi : c.iri? text = some iri)
      (ht : ∀ t ∈ shapes, c.iri? t.id ≠ some iri) (hc : c.lenient = false) :
      Offends c shapes (.reference s st) (.danglingReference text s.id st.property)

/-! ### Each place by itself -/

theorem offends_shape_iff {seen : List String}
    (hseen : ∀ iri, iri ∈ seen ↔ ∃ t ∈ earlier, c.iri? t.id = some iri) :
    c.Offends shapes (.shape earlier s) e ↔ c.IdFault seen s e := by
  refine ⟨?_, ?_⟩
  · rintro (h | ⟨h, ht, hti⟩)
    · exact .name h
    · exact .repeated h ((hseen _).2 ⟨_, ht, hti⟩)
  · rintro (h | ⟨h, hm⟩)
    · exact .name h
    · obtain ⟨t, ht, hti⟩ := (hseen _).1 hm
      exact .repeated h ht hti

theorem offends_property_iff :
    c.Offends shapes (.property s st) e ↔ c.NameFault st.property e := by
  refine ⟨?_, .property⟩
  intro ho
  cases ho with
  | property h => exact h

theorem offends_columns_iff :
    c.Offends shapes (.columns s st) e ↔ st.datatype.isSome ∧ st.valueShape.isSome ∧
      .conflictingValue s.id st.property st.line = e := by
  refine ⟨?_, ?_⟩
  · intro ho
    cases ho with
    | columns hd hv => exact ⟨hd, hv, rfl⟩
  · rintro ⟨hd, hv, rfl⟩
    exact .columns hd hv

theorem offends_nodeKind_iff :
    c.Offends shapes (.nodeKind s st) e ↔ ∃ kind, st.nodeKind = some kind ∧
      (st.datatype.isSome ∧ kind ≠ .literal ∨ st.valueShape.isSome ∧ kind = .literal) ∧
      .incompatibleKind s.id st.property kind st.line = e := by
  refine ⟨?_, ?_⟩
  · intro ho
    cases ho with
    | datatypeKind hd hk hl => exact ⟨_, hk, .inl ⟨hd, hl⟩, rfl⟩
    | referenceKind hv hk => exact ⟨_, hk, .inr ⟨hv, rfl⟩, rfl⟩
  · rintro ⟨kind, hk, ⟨hd, hl⟩ | ⟨hv, rfl⟩, rfl⟩
    · exact .datatypeKind hd hk hl
    · exact .referenceKind hv hk

theorem offends_valueName_iff :
    c.Offends shapes (.valueName s st) e ↔
      (∃ text, st.datatype = some text ∧ c.DatatypeFault text e) ∨
        ∃ text, st.valueShape = some text ∧ c.NameFault text e := by
  refine ⟨?_, ?_⟩
  · intro ho
    cases ho with
    | datatype hd h => exact .inl ⟨_, hd, h⟩
    | reference hv h => exact .inr ⟨_, hv, h⟩
  · rintro (⟨text, hd, h⟩ | ⟨text, hv, h⟩)
    · exact .datatype hd h
    · exact .reference hv h

theorem offends_reference_iff (hn : c.nameShapes [] shapes = .ok table) :
    c.Offends shapes (.reference s st) e ↔ ∃ text iri, st.valueShape = some text ∧
      c.iri? text = some iri ∧ table.lookup iri = none ∧ c.lenient = false ∧
      .danglingReference text s.id st.property = e := by
  refine ⟨?_, ?_⟩
  · intro ho
    cases ho with
    | dangling hv hi ht hc => exact ⟨_, _, hv, hi, (lookup_eq_none_iff hn).2 ht, hc, rfl⟩
  · rintro ⟨text, iri, hv, hi, hl, hc, rfl⟩
    exact .dangling hv hi ((lookup_eq_none_iff hn).1 hl) hc

/-! ### Statements -/

theorem refer_eq_error_iff {shape text iri : String} :
    c.refer table shape st text iri = .error e ↔ table.lookup iri = none ∧ c.lenient = false ∧
      .danglingReference text shape st.property = e := by
  rw [refer]
  cases table.lookup iri with
  | some id => simp
  | none => cases c.lenient <;> simp

/-- The error about the values of a property is that of the first place that offends. -/
theorem value_eq_error_iff_first (hn : c.nameShapes [] shapes = .ok table) :
    (c.value table s.id st).result = .error e ↔
      First (c.Offends shapes) (valuePlaces s st) e := by
  simp only [valuePlaces, first_cons_iff, not_first_nil, offends_columns_iff, offends_nodeKind_iff,
    offends_valueName_iff, offends_reference_iff hn]
  cases hd : st.datatype with
  | some text =>
    cases hv : st.valueShape with
    | some reference =>
      rw [value_of_conflict hd hv]
      simp
    | none =>
      rw [value_of_datatype hd hv]
      cases hk : st.nodeKind.filter (· ≠ .literal) with
      | some kind =>
        obtain ⟨hk, hl⟩ := filter_kind_eq_some_iff.1 hk
        simp [hk, hl]
      | none =>
        have hl := filter_kind_eq_none_iff.1 hk
        simp only [map_eq_error_iff, datatype_eq_error_iff]
        grind
  | none =>
    cases hv : st.valueShape with
    | none =>
      rw [value_of_neither hd hv]
      simp
    | some text =>
      rw [value_of_reference hd hv]
      by_cases hk : st.nodeKind = some .literal
      · rw [if_pos hk]
        simp [hk]
      · rw [if_neg hk, bind_eq_error_iff]
        cases hname : c.declaredName text with
        | error e' =>
          simp [hk, ← declaredName_eq_error_iff, hname]
        | ok target =>
          have hi := iri?_of_declaredName hname
          simp [hk, ← declaredName_eq_error_iff, hname, hi, refer_eq_error_iff]

theorem fault?_eq_some_iff_first (hn : c.nameShapes [] shapes = .ok table)
    (o : Profile.Shape × Profile.Statement) :
    c.fault? table o = some e ↔ First (c.Offends shapes) (statementPlaces o) e := by
  rw [fault?, failure?_eq_some_iff, result_constraint, bind_eq_error_iff, statementPlaces,
    first_cons_iff, ← value_eq_error_iff_first hn]
  simp only [offends_property_iff, map_eq_error_iff, ← declaredName_eq_error_iff]
  cases c.declaredName o.2.property <;> simp

/-! ### The whole profile -/

theorem nameShapes_eq_error_iff_first {rest : List Profile.Shape} {seen : List String}
    (hseen : ∀ iri, iri ∈ seen ↔ ∃ t ∈ earlier, c.iri? t.id = some iri) :
    c.nameShapes seen rest = .error e ↔ First (c.Offends shapes) (namePlaces earlier rest) e := by
  induction rest generalizing earlier seen with
  | nil => simp [nameShapes, namePlaces, not_first_nil]
  | cons s rest ih =>
    rw [nameShapes_cons, namePlaces, first_cons_iff, bind_eq_error_iff]
    simp only [map_eq_error_iff, offends_shape_iff hseen, ← nameShape_eq_error_iff]
    cases hs : c.nameShape seen s with
    | error e' => simp
    | ok entry =>
      have hi := (nameShape_eq_ok_iff.1 hs).1.iri?
      have hseen' : ∀ iri, iri ∈ entry.1 :: seen ↔ ∃ t ∈ earlier ++ [s], c.iri? t.id = some iri := by
        intro iri
        simp [hseen, or_and_right, exists_or, hi, or_comm, eq_comm]
      simp [ih hseen']

/-- A compilation fails if some place offends, and with the error of the first place that does. -/
theorem compile_reports_first (c : Compiler) (shapes : List Profile.Shape) :
    (∀ e, (c.compile shapes).result = .error e ↔ First (c.Offends shapes) (places shapes) e) ∧
      ((∃ e, (c.compile shapes).result = .error e) ↔
        ∃ p ∈ places shapes, ∃ e, c.Offends shapes p e) := by
  have hfirst : ∀ e, (c.compile shapes).result = .error e ↔
      First (c.Offends shapes) (places shapes) e := by
    intro e
    have hnames : ∀ e, c.nameShapes [] shapes = .error e ↔
        First (c.Offends shapes) (namePlaces [] shapes) e :=
      fun e => nameShapes_eq_error_iff_first (by simp)
    simp only [compile_eq_error_iff, places, first_append_iff, ← hnames]
    cases hn : c.nameShapes [] shapes with
    | error e' => simp
    | ok table =>
      simp [first_flatMap_iff, findSome?_eq_some_iff_first, fault?_eq_some_iff_first hn]
  refine ⟨hfirst, ?_⟩
  simp only [hfirst, exists_first_iff]

/-- The name of the second shape comes before the statements of the first. -/
example : failure? (default.compile
    [{ id := "A", statements := [
        { property := "p", datatype := some "date", valueShape := some "B" }] },
      { id := "o:B" }]).result = some (.undeclaredPrefix "o:B" "o") := by
  decide +kernel

end TabularShapes.Compiler
