import TabularShapes.Proofs.Compile.Dropping
import TabularShapes.Proofs.Writing.Document
import TabularShapes.Writing.Write

/-! The spelling of names does not matter. Profiles whose names stand for the same IRIs, one by one,
fail alike or make the same JSON document, with warnings about the same statements. -/

namespace TabularShapes

inductive CompileError.Kind
  | conflictingValue | danglingReference | duplicateShape | invalidName | undeclaredPrefix
  | incompatibleKind | invalidSchema
deriving DecidableEq

def CompileError.kind : CompileError → Kind
  | .conflictingValue .. => .conflictingValue
  | .danglingReference .. => .danglingReference
  | .duplicateShape .. => .duplicateShape
  | .invalidName .. => .invalidName
  | .undeclaredPrefix .. => .undeclaredPrefix
  | .incompatibleKind .. => .incompatibleKind
  | .invalidSchema .. => .invalidSchema

namespace Compiler

open Profile (occurrences)

/-- Two texts that are names of the same IRI. -/
def Synonyms (c : Compiler) (a b : String) : Prop := ∃ iri, c.iri? a = some iri ∧ c.iri? b = some iri

structure StatementRespelled (c : Compiler) (st st' : Profile.Statement) : Prop where
  property : c.Synonyms st.property st'.property
  valueShape : Option.Rel c.Synonyms st.valueShape st'.valueShape
  datatype : st.datatype = st'.datatype
  nodeKind : st.nodeKind = st'.nodeKind
  mandatory : st.mandatory = st'.mandatory
  repeatable : st.repeatable = st'.repeatable

/-- Two shapes that differ in how their names are spelled. -/
structure ShapeRespelled (c : Compiler) (s s' : Profile.Shape) : Prop where
  id : c.Synonyms s.id s'.id
  statements : List.Forall₂ c.StatementRespelled s.statements s'.statements

def SameKind (e e' : CompileError) : Prop := e.kind = e'.kind

structure SameWarning (c : Compiler) (w w' : Warning) : Prop where
  reference : c.Synonyms w.reference w'.reference
  shape : c.Synonyms w.shape w'.shape
  property : c.Synonyms w.property w'.property

structure SameEntry (c : Compiler) (p p' : String × Name) : Prop where
  iri : p.1 = p'.1
  name : p.2.identity c.prefixes = p'.2.identity c.prefixes

variable {c : Compiler} {table table' : ShapeTable} {shapes shapes' : List Profile.Shape}
  {a b shape shape' : String} {st st' : Profile.Statement} {s s' : Profile.Shape}

theorem Synonyms.iri?_eq (h : c.Synonyms a b) : c.iri? a = c.iri? b := by
  obtain ⟨iri, ha, hb⟩ := h
  exact ha.trans hb.symm

theorem Synonyms.declaredName (h : c.Synonyms a b) : ∃ n n', c.declaredName a = .ok n ∧
    c.declaredName b = .ok n' ∧ n.identity c.prefixes = n'.identity c.prefixes := by
  obtain ⟨iri, ha, hb⟩ := h
  obtain ⟨n, hn, hi⟩ := declaredName_of_iri? ha
  obtain ⟨n', hn', hi'⟩ := declaredName_of_iri? hb
  exact ⟨n, n', hn, hn', hi.trans hi'.symm⟩

theorem nameShape_respelled (h : c.Synonyms s.id s'.id) (seen : List String) :
    Agree SameKind c.SameEntry (c.nameShape seen s) (c.nameShape seen s') := by
  obtain ⟨n, n', hn, hn', hi⟩ := h.declaredName
  simp only [nameShape, hn, hn', bind, Except.bind, hi]
  split
  · exact .error rfl
  · exact .ok ⟨rfl, hi⟩

/-- Both naming phases see the same IRIs, and so the same repetitions. -/
theorem nameShapes_respelled (h : List.Forall₂ c.ShapeRespelled shapes shapes')
    (seen : List String) : Agree SameKind (List.Forall₂ c.SameEntry)
      (c.nameShapes seen shapes) (c.nameShapes seen shapes') := by
  induction h generalizing seen with
  | nil => exact .ok .nil
  | cons hs _ ih =>
    rw [nameShapes_cons, nameShapes_cons]
    refine (nameShape_respelled hs.id seen).bind fun p p' hp => ?_
    rw [← hp.iri]
    exact (ih (p.1 :: seen)).map fun _ _ => .cons hp

theorem lookup_respelled (h : List.Forall₂ c.SameEntry table table') (iri : String) :
    Option.Rel (fun n n' => n.identity c.prefixes = n'.identity c.prefixes)
      (table.lookup iri) (table'.lookup iri) := by
  induction h with
  | nil => exact .none
  | @cons p p' _ _ hp _ ih =>
    obtain ⟨i, n⟩ := p
    obtain ⟨i', n'⟩ := p'
    obtain ⟨hi, hn⟩ := hp
    dsimp only at hi hn
    subst hi
    simp only [List.lookup_cons]
    split
    · exact .some hn
    · exact ih

/-- The values of two runs that read the same in JSON. -/
def SameValue (c : Compiler) (r r' : Value × List Warning) : Prop :=
  Document.value c.prefixes r.1 = Document.value c.prefixes r'.1

theorem refer_respelled (h : List.Forall₂ c.SameEntry table table')
    (hk : st.nodeKind = st'.nodeKind) (iri : String) :
    Agree SameKind c.SameValue (c.refer table shape st a iri) (c.refer table' shape' st' b iri) := by
  have hl := lookup_respelled h iri
  unfold refer
  cases hl₁ : table.lookup iri <;> cases hl₂ : table'.lookup iri <;> rw [hl₁, hl₂] at hl
  · cases c.lenient with
    | true =>
      rw [hk]
      exact .ok rfl
    | false => exact .error rfl
  · cases hl
  · cases hl
  · cases hl with
    | some hn => exact .ok (Document.value_reference hn)

theorem value_respelled (h : List.Forall₂ c.SameEntry table table')
    (hst : c.StatementRespelled st st') :
    Agree SameKind c.SameValue (c.value table shape st).result (c.value table' shape' st').result := by
  have hv := hst.valueShape
  cases hd : st.datatype with
  | some text =>
    have hd' : st'.datatype = some text := hst.datatype.symm.trans hd
    cases hv₁ : st.valueShape <;> cases hv₂ : st'.valueShape <;> rw [hv₁, hv₂] at hv
    · -- the same datatype, and the same resolver answers for it
      rw [value_of_datatype hd hv₁, value_of_datatype hd' hv₂, ← hst.nodeKind]
      split
      · exact .error rfl
      · cases c.datatype text with
        | ok n => exact .ok rfl
        | error e => exact .error rfl
    · cases hv
    · cases hv
    · rw [value_of_conflict hd hv₁, value_of_conflict hd' hv₂]
      exact .error rfl
  | none =>
    have hd' : st'.datatype = none := hst.datatype.symm.trans hd
    cases hv₁ : st.valueShape <;> cases hv₂ : st'.valueShape <;> rw [hv₁, hv₂] at hv
    · rw [value_of_neither hd hv₁, value_of_neither hd' hv₂, hst.nodeKind]
      exact .ok rfl
    · cases hv
    · cases hv
    · cases hv with
      | some hv =>
        obtain ⟨n, n', hn, hn', hi⟩ := hv.declaredName
        -- the names differ, but both tables are asked for the same IRI
        rw [value_of_reference hd hv₁, value_of_reference hd' hv₂, ← hst.nodeKind, hn, hn']
        split
        · exact .error rfl
        · simp only [bind, Except.bind, hi]
          exact refer_respelled h hst.nodeKind _

def SameConstraint (c : Compiler) (r r' : Constraint × List Warning) : Prop :=
  Document.constraint c.prefixes r.1 = Document.constraint c.prefixes r'.1

def SameDeclaration (c : Compiler) (r r' : Declaration × List Warning) : Prop :=
  Document.declaration c.prefixes r.1 = Document.declaration c.prefixes r'.1

theorem constraint_respelled (h : List.Forall₂ c.SameEntry table table')
    (hst : c.StatementRespelled st st') :
    Agree SameKind c.SameConstraint (c.constraint table shape st).result
      (c.constraint table' shape' st').result := by
  obtain ⟨n, n', hn, hn', hi⟩ := hst.property.declaredName
  rw [result_constraint, result_constraint, hn, hn']
  refine (value_respelled h hst).map fun r r' hr => Document.constraint_congr hi hr ?_
  simp only [constraintOf, hst.mandatory, hst.repeatable]

theorem declaration_respelled (h : List.Forall₂ c.SameEntry table table')
    (hs : c.ShapeRespelled s s') {n n' : Name}
    (hi : n.identity c.prefixes = n'.identity c.prefixes) :
    Agree SameKind c.SameDeclaration (c.declaration table n s).result
      (c.declaration table' n' s').result := by
  rw [result_declaration, result_declaration]
  refine (Agree.collect hs.statements fun st st' hst => constraint_respelled h hst).map ?_
  rintro _ _ ⟨rs, rs', hrs, rfl, rfl⟩
  refine Document.declaration_congr hi ?_
  exact List.forall₂_map_left_iff.2 (List.forall₂_map_right_iff.2 hrs)

theorem declarations_respelled (h : List.Forall₂ c.ShapeRespelled shapes shapes')
    (ht : List.Forall₂ c.SameEntry table table') :
    Agree SameKind (fun r r' => Schema.document ⟨c.prefixes, r.1⟩ = Schema.document ⟨c.prefixes, r'.1⟩)
      (c.declarations table (shapes.zip (table.map (·.2)))).result
      (c.declarations table' (shapes'.zip (table'.map (·.2)))).result := by
  have hnames : List.Forall₂ (fun n n' : Name => n.identity c.prefixes = n'.identity c.prefixes)
      (table.map (·.2)) (table'.map (·.2)) :=
    List.forall₂_map_left_iff.2 (List.forall₂_map_right_iff.2 (ht.imp fun _ _ hp => hp.name))
  rw [declarations_eq_collect, declarations_eq_collect]
  refine (Agree.collect (zip_of_forall₂ h hnames) fun p p' hp => declaration_respelled ht hp.1 hp.2).mono ?_
  rintro _ _ ⟨rs, rs', hrs, rfl, rfl⟩
  refine Document.document_congr ?_
  exact List.forall₂_map_left_iff.2 (List.forall₂_map_right_iff.2 hrs)

theorem document_respelled (h : List.Forall₂ c.ShapeRespelled shapes shapes') :
    Agree SameKind (fun r r' => r.1.document = r'.1.document)
      (c.compile shapes).result (c.compile shapes').result := by
  rw [result_compile, result_compile]
  refine (nameShapes_respelled h []).bind fun table table' ht => ?_
  exact (declarations_respelled h ht).map fun _ _ hr => hr

theorem defines_respelled (h : List.Forall₂ c.ShapeRespelled shapes shapes')
    (hr : c.Synonyms a b) : c.defines shapes a = c.defines shapes' b := by
  induction h with
  | nil => rfl
  | cons hs _ ih =>
    simp only [defines, List.any_cons, hs.id.iri?_eq, hr.iri?_eq] at ih ⊢
    rw [ih]

theorem warning?_respelled (h : List.Forall₂ c.ShapeRespelled shapes shapes')
    (hs : c.Synonyms s.id s'.id) (hst : c.StatementRespelled st st') :
    Option.Rel c.SameWarning (c.warning? shapes (s, st)) (c.warning? shapes' (s', st')) := by
  have hv := hst.valueShape
  unfold warning?
  dsimp only
  generalize st.valueShape = r at hv ⊢
  generalize st'.valueShape = r' at hv ⊢
  cases hv with
  | none => exact .none
  | some hr =>
    simp only [Option.bind_some, defines_respelled h hr]
    split
    · exact .none
    · exact .some ⟨hr, hs, hst.property⟩

/-- Statements at the same place are both warned about or both let pass. -/
theorem warnings_respelled (h : List.Forall₂ c.ShapeRespelled shapes shapes') :
    List.Forall₂ (fun o o' => Option.Rel c.SameWarning (c.warning? shapes o) (c.warning? shapes' o'))
      (occurrences shapes) (occurrences shapes') := by
  refine List.rel_flatMap h fun s s' hs => ?_
  refine List.rel_map (fun st st' hst => ?_) hs.statements
  exact warning?_respelled h hs.id hst

/-- What two runs have in common that succeed: warnings about the same statements, and the text of
the JSON syntax. -/
structure SameOutput (c : Compiler) (shapes shapes' : List Profile.Shape)
    (r r' : Schema × List Warning) : Prop where
  count : r.2.length = r'.2.length
  warnings : r.2 = (occurrences shapes).filterMap (c.warning? shapes)
  warnings' : r'.2 = (occurrences shapes').filterMap (c.warning? shapes')
  places : List.Forall₂
    (fun o o' => Option.Rel c.SameWarning (c.warning? shapes o) (c.warning? shapes' o'))
    (occurrences shapes) (occurrences shapes')
  text : ∀ layout : Layout, layout.format = .shexJ → r.1.write layout = r'.1.write layout

/-- Profiles that differ in the spelling of names only fail with errors of one kind, or have the same
output. -/
theorem compile_respelled (h : List.Forall₂ c.ShapeRespelled shapes shapes') :
    Agree (fun e e' => e.kind = e'.kind) (c.SameOutput shapes shapes')
      (c.compile shapes).result (c.compile shapes').result := by
  have hdoc := document_respelled h
  have hplaces := warnings_respelled h
  cases hr : (c.compile shapes).result <;> cases hr' : (c.compile shapes').result <;>
    rw [hr, hr'] at hdoc
  · cases hdoc with
    | error he => exact .error he
  · cases hdoc
  · cases hdoc
  · cases hdoc with
    | ok hd =>
      have hws := warnings_eq hr
      have hws' := warnings_eq hr'
      refine .ok ⟨?_, hws, hws', hplaces, fun layout hl => ?_⟩
      · rw [hws, hws']
        exact (List.rel_filterMap (fun _ _ ho => ho) hplaces).length_eq
      · simp only [Schema.write, hl, hd]

/-- A shape that refers to itself and to an undefined one, with abbreviated names. -/
def abbreviated : Profile.Shape :=
  { id := "A", statements := [{ property := "p", valueShape := some "A" },
      { property := ":q", valueShape := some "C" }] }

def unabbreviated : Profile.Shape :=
  { id := "http://example.org/A"
    statements := [{ property := "http://example.org/p", valueShape := some "<http://example.org/A>" },
      { property := "<http://example.org/q>", valueShape := some "http://example.org/C" }] }

theorem compile_respelled_of_unabbreviated :
    ShapeRespelled { default with lenient := true } abbreviated unabbreviated ∧
    ∃ r r', ({ default with lenient := true }.compile [abbreviated]).result = .ok r ∧
      ({ default with lenient := true }.compile [unabbreviated]).result = .ok r' ∧
      SameOutput { default with lenient := true } [abbreviated] [unabbreviated] r r' ∧
      r.2.length = 1 := by
  have hs : ShapeRespelled { default with lenient := true } abbreviated unabbreviated := by
    refine ⟨⟨"http://example.org/A", by decide +kernel, by decide +kernel⟩, .cons ?_ (.cons ?_ .nil)⟩
    · exact ⟨⟨"http://example.org/p", by decide +kernel, by decide +kernel⟩,
        .some ⟨"http://example.org/A", by decide +kernel, by decide +kernel⟩, rfl, rfl, rfl, rfl⟩
    · exact ⟨⟨"http://example.org/q", by decide +kernel, by decide +kernel⟩,
        .some ⟨"http://example.org/C", by decide +kernel, by decide +kernel⟩, rfl, rfl, rfl, rfl⟩
  have hok : ({ default with lenient := true }.compile [abbreviated]).result.toOption.map
      (fun r : Schema × List Warning => r.2.length) = some 1 := by decide +kernel
  have h := compile_respelled (.cons hs .nil)
  cases hr : ({ default with lenient := true }.compile [abbreviated]).result <;>
    cases hr' : ({ default with lenient := true }.compile [unabbreviated]).result <;>
    rw [hr, hr'] at h
  · simp [hr, Except.toOption] at hok
  · cases h
  · cases h
  · cases h with
    | ok h => exact ⟨hs, _, _, rfl, rfl, h, by simpa [hr, Except.toOption] using hok⟩

end Compiler

end TabularShapes
