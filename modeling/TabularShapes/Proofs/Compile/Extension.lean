import TabularShapes.Proofs.Compile.Datatypes
import TabularShapes.Proofs.Compile.Result
import TabularShapes.Proofs.Name.Writing
import TabularShapes.Proofs.Writing.Document
import TabularShapes.Writing.Write

/-! Compilation with more namespaces. Names that were declared stay declared and stand for the same
IRIs, so that what was compiled before is compiled to the same declarations, with the same warnings and
the same JSON text. An answer of the resolver does not depend on the namespaces at all. -/

namespace TabularShapes

namespace PrefixMap

/-- What the second map declares, the first one declares too, with the same namespaces. -/
def Extends (m' m : PrefixMap) : Prop :=
  ∀ space iri, m.get? space = some iri → m'.get? space = some iri

def concat (m : PrefixMap) (space : PrefixName) (iri : Iri) : PrefixMap :=
  ⟨m.declarations ++ [(space.text, iri.text)]⟩

variable {m m' : PrefixMap} {space : PrefixName} {iri : Iri}

theorem put_of_undeclared {space : String} {pairs : List (String × String)}
    (h : pairs.lookup space = none) (iri : String) :
    put space iri pairs = pairs ++ [(space, iri)] := by
  induction pairs with
  | nil => rfl
  | cons p rest ih =>
    obtain ⟨s, i⟩ := p
    rw [List.lookup_cons] at h
    by_cases hs : space = s
    · simp [hs] at h
    · rw [beq_false_of_ne hs] at h
      rw [put, if_neg (Ne.symm hs), ih h, List.cons_append]

theorem declare_of_undeclared (h : m.declares space.text = false) :
    m.declare space.text iri.text = m.concat space iri := by
  have hnone : m.get? space.text = none := by simpa [declares] using h
  exact congrArg PrefixMap.mk (put_of_undeclared hnone _)

theorem extends_concat (h : m.declares space.text = false) : (m.concat space iri).Extends m := by
  intro key i hget
  rw [← declare_of_undeclared h, get?_declare, if_neg]
  · exact hget
  · rintro rfl
    rw [declares, hget] at h
    cases h

end PrefixMap

namespace Name

variable {n : Name} {m m' : PrefixMap} {iri : String}

theorem expand_of_extends (hm : m'.Extends m) (h : n.expand m = some iri) : n.expand m' = some iri := by
  cases n with
  | full _ => exact h
  | short space ending =>
    obtain ⟨i, hget, hi⟩ := Option.map_eq_some_iff.1 h
    exact Option.map_eq_some_iff.2 ⟨i, hm _ _ hget, hi⟩

theorem Declared.of_extends (hm : m'.Extends m) (h : n.Declared m) : n.Declared m' := by
  obtain ⟨iri, hx⟩ := exists_expand_iff.2 h
  exact declared_of_expand (expand_of_extends hm hx)

theorem identity_of_extends (hm : m'.Extends m) (h : n.Declared m) : n.identity m = n.identity m' := by
  obtain ⟨iri, hx⟩ := exists_expand_iff.2 h
  rw [identity_of_expand hx, identity_of_expand (expand_of_extends hm hx)]

end Name

namespace Compiler

variable {c : Compiler} {m : PrefixMap} {table : ShapeTable} {shapes : List Profile.Shape}
  {s : Profile.Shape} {st : Profile.Statement} {text shape iri : String} {n : Name} {v : Value}
  {ws : List Warning}

def under (c : Compiler) (m : PrefixMap) : Compiler := { c with prefixes := m }

theorem declaredName_under (hm : m.Extends c.prefixes) (h : c.declaredName text = .ok n) :
    (c.under m).declaredName text = .ok n := by
  obtain ⟨hr, hd⟩ := declaredName_eq_ok_iff.1 h
  exact declaredName_eq_ok_iff.2 ⟨hr, hd.of_extends hm⟩

theorem iri?_under (hm : m.Extends c.prefixes) (h : c.iri? text = some iri) :
    (c.under m).iri? text = some iri := by
  obtain ⟨n, hr, hx⟩ := iri?_eq_some_iff.1 h
  exact iri?_eq_some_iff.2 ⟨n, hr, Name.expand_of_extends hm hx⟩

/-- The resolver is asked first, and its answer does not depend on the namespaces. -/
theorem datatype_under (hm : m.Extends c.prefixes) (h : c.datatype text = .ok n) :
    (c.under m).datatype text = .ok n := by
  apply datatype_eq_ok_iff.2
  cases datatype_eq_ok_iff.1 h with
  | answered hr ha => exact .answered hr ha
  | asRead hr ha hd => exact .asRead hr ha (hd.of_extends hm)

theorem Entry.under (hm : m.Extends c.prefixes) {entry : String × Name} (h : c.Entry s entry) :
    (c.under m).Entry s entry :=
  ⟨h.1, Name.expand_of_extends hm h.2⟩

theorem nameShapes_under (hm : m.Extends c.prefixes) {seen : List String}
    (h : c.nameShapes seen shapes = .ok table) : (c.under m).nameShapes seen shapes = .ok table := by
  obtain ⟨hentries, hdistinct⟩ := nameShapes_eq_ok_iff.1 h
  exact nameShapes_eq_ok_iff.2 ⟨hentries.imp fun _ _ he => he.under hm, hdistinct⟩

theorem Gives.under (hm : m.Extends c.prefixes) (h : c.Gives table shape st v ws) :
    (c.under m).Gives table shape st v ws := by
  cases h with
  | datatype hd hv hk hn => exact .datatype hd hv hk (datatype_under hm hn)
  | reference hd hv hk hi hl => exact .reference hd hv hk (iri?_under hm hi) hl
  | dropped hd hv hk hi hl hc => exact .dropped hd hv hk (iri?_under hm hi) hl hc
  | kind hd hv => exact .kind hd hv

theorem constraint_under (hm : m.Extends c.prefixes) {r : Constraint × List Warning}
    (h : (c.constraint table shape st).result = .ok r) :
    ((c.under m).constraint table shape st).result = .ok r := by
  obtain ⟨p, v, hp, hg, hk⟩ := constraint_eq_ok_iff.1 h
  exact constraint_eq_ok_iff.2 ⟨p, v, declaredName_under hm hp, hg.under hm, hk⟩

theorem Declares.under (hm : m.Extends c.prefixes) {r : Declaration × List Warning}
    (h : c.Declares table s r) : (c.under m).Declares table s r := by
  obtain ⟨hid, hlabel, rs, hrs, hr⟩ := h
  exact ⟨declaredName_under hm hid, hlabel, rs, hrs.imp fun _ _ hr => constraint_under hm hr, hr⟩

theorem compile_under (hm : m.Extends c.prefixes) {schema : Schema}
    (h : (c.compile shapes).result = .ok (schema, ws)) :
    ((c.under m).compile shapes).result = .ok (⟨m, schema.declarations⟩, ws) := by
  obtain ⟨table, rs, hn, hrs, rfl, hws⟩ := compile_eq_ok_iff.1 h
  apply compile_eq_ok_iff.2
  exact ⟨table, rs, nameShapes_under hm hn, hrs.imp fun _ _ hr => hr.under hm, rfl, hws⟩

/-- Nor do they change the JSON text of it, since all its names were declared before. -/
theorem write_under (hm : m.Extends c.prefixes) {schema : Schema}
    (h : (c.compile shapes).result = .ok (schema, ws)) {layout : Layout}
    (hformat : layout.format = .shexJ) :
    schema.write layout = Schema.write ⟨m, schema.declarations⟩ layout := by
  obtain ⟨hprefixes, hsound⟩ := sound_of_compile h
  have hdocument : schema.document = Schema.document ⟨m, schema.declarations⟩ := by
    apply Document.document_of_identity
    intro n hn
    exact Name.identity_of_extends (hprefixes ▸ hm) (hsound.declared hn)
  simp only [Schema.write, hformat, hdocument]

/-- One more namespace, under an abbreviation that was not declared, does no harm: what was compiled
before is compiled to the same declarations, with the same warnings and the same JSON text, whatever the
namespace is. -/
theorem withPrefix_harmless (c : Compiler) (space : PrefixName) (iri : Iri)
    (hnew : c.prefixes.declares space.text = false) {schema : Schema}
    (h : (c.compile shapes).result = .ok (schema, ws)) :
    ∃ c', c.withPrefix space.text iri.text = .ok c' ∧ c'.resolver = c.resolver ∧
      c'.lenient = c.lenient ∧
      c'.prefixes.declarations = c.prefixes.declarations ++ [(space.text, iri.text)] ∧
      ∃ schema', (c'.compile shapes).result = .ok (schema', ws) ∧
        schema'.prefixes = c'.prefixes ∧ schema'.declarations = schema.declarations ∧
        ∀ layout : Layout, layout.format = .shexJ → schema'.write layout = schema.write layout := by
  have hm : (c.prefixes.concat space iri).Extends c.prefixes := PrefixMap.extends_concat hnew
  refine ⟨c.under (c.prefixes.concat space iri), ?_, rfl, rfl, rfl, _, compile_under hm h, rfl, rfl, ?_⟩
  · apply withPrefix_eq_ok_iff.2
    rw [PrefixMap.declare_of_undeclared hnew]
    exact ⟨space.valid, iri.valid, rfl⟩
  · intro layout hformat
    exact (write_under hm h hformat).symm

/-- A lenient compiler whose resolver knows an abbreviation that is not declared. -/
def knowing : Compiler where
  prefixes := defaultPrefixes
  resolver space ending := if space = "d" then some ("http://d/" ++ ending) else none
  lenient := true

def offer : Profile.Shape :=
  { id := "Offer", statements := [{ property := "price", datatype := some "d:Number" },
      { property := "seller", valueShape := some "Person" }] }

/-- That abbreviation may be declared with a namespace that is declared already. -/
theorem withPrefix_harmless_of_knowing : knowing.prefixes.declares "d" = false ∧
    ∃ schema ws c' schema', (knowing.compile [offer]).result = .ok (schema, ws) ∧
      ws = [⟨"Person", "Offer", "seller"⟩] ∧
      knowing.withPrefix "d" "http://example.org/" = .ok c' ∧
      (c'.compile [offer]).result = .ok (schema', ws) ∧
      schema'.declarations = schema.declarations ∧
      schema'.write { format := .shexJ } = schema.write { format := .shexJ } := by
  have hnew : knowing.prefixes.declares "d" = false := by decide
  have hok : (knowing.compile [offer]).result.map (·.2) = .ok [⟨"Person", "Offer", "seller"⟩] := by
    decide +kernel
  obtain ⟨⟨schema, ws⟩, h, hws⟩ := map_eq_ok_iff.1 hok
  obtain ⟨c', hc', -, -, -, schema', h', -, hds, hwrite⟩ := withPrefix_harmless knowing
    ⟨"d", by decide⟩ ⟨"http://example.org/", by decide +kernel⟩ hnew h
  exact ⟨hnew, schema, ws, c', schema', h, hws, hc', h', hds, hwrite _ rfl⟩

end Compiler

end TabularShapes
