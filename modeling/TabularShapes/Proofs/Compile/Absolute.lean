import TabularShapes.Proofs.Compile.Closure
import TabularShapes.Proofs.Compile.Expansion
import TabularShapes.Proofs.Iri.Authority

/-! Whether the names of a schema stand for absolute IRIs. A namespace is judged when it is declared,
and what a name stands for is made by appending to it, so that only a namespace that ends in its
authority can lead out of the IRIs: there the end of the name is taken for the number of a port. -/

namespace TabularShapes

theorem exists_ofIri_iff {text : String} :
    (∃ n, Name.ofIri text = .ok n) ↔ isIri text.toList = true := by
  simp only [Name.ofIri_eq_ok_iff]
  refine ⟨?_, ?_⟩
  · rintro ⟨n, iri, -, rfl⟩
    exact iri.valid
  · intro h
    exact ⟨_, ⟨text, h⟩, rfl, rfl⟩

namespace PrefixMap

variable {m : PrefixMap} {space iri : String}

/-- No declared namespace ends in its authority. -/
def Closed (m : PrefixMap) : Prop :=
  ∀ p ∈ m.declarations, Iri.openAuthority? p.2.toList = none

/-- What a name of a declared namespace stands for is an IRI unless what follows the host is no
port. -/
theorem Judged.isIri_append_iff (hj : m.Judged) (h : m.get? space = some iri)
    (ending : LocalName) : isIri (iri ++ ending.text).toList = true ↔
      Iri.hasSoundPort (iri ++ ending.text).toList = true := by
  rw [String.toList_append]
  refine Iri.isIri_append_iff (hj.valid (mem_of_get? h)).2 ?_
  exact fun c hc => isAuthorityChar_of_isNameChar (mem_localName ending.valid hc)

theorem Judged.isIri_append (hj : m.Judged) (h : m.get? space = some iri)
    (hclosed : Iri.openAuthority? iri.toList = none) (ending : LocalName) :
    isIri (iri ++ ending.text).toList = true := by
  refine (hj.isIri_append_iff h ending).2 ?_
  rw [String.toList_append]
  refine Iri.hasSoundPort_append (hj.valid (mem_of_get? h)).2 ?_ hclosed
  exact fun c hc => isAuthorityChar_of_isNameChar (mem_localName ending.valid hc)

theorem Judged.isIri_expand_iff (hj : m.Judged) {n : Name} (h : n.expand m = some iri) :
    isIri iri.toList = true ↔ Iri.hasSoundPort iri.toList = true := by
  cases n with
  | full i =>
    cases h
    exact iff_of_true i.valid (Iri.hasSoundPort_of_isIri i.valid)
  | short space ending =>
    obtain ⟨namespaceIri, hget, rfl⟩ := Option.map_eq_some_iff.1 h
    exact hj.isIri_append_iff hget ending

theorem Judged.isIri_expand (hj : m.Judged) (hclosed : m.Closed) {n : Name}
    (h : n.expand m = some iri) : isIri iri.toList = true := by
  cases n with
  | full i =>
    cases h
    exact i.valid
  | short space ending =>
    obtain ⟨namespaceIri, hget, rfl⟩ := Option.map_eq_some_iff.1 h
    exact hj.isIri_append hget (hclosed _ (mem_of_get? hget)) ending

end PrefixMap

/-! ### The IRIs of a document -/

def Demand.iri? : Demand → Option String
  | .datatype iri | .shape iri => some iri
  | .nodeKind _ | .any => none

def ShapeOutline.iris (o : ShapeOutline) : List String :=
  o.id :: o.constraints.flatMap fun k => k.predicate :: k.demand.iri?.toList

theorem Demand.iri?_demand (m : PrefixMap) (v : Value) :
    (v.demand m).iri? = v.name?.map (·.identity m) := by
  cases v <;> rfl

theorem Schema.iris_outline (s : Schema) :
    s.outline.flatMap ShapeOutline.iris = s.names.map (·.identity s.prefixes) := by
  have hconstraint : ∀ k : Constraint, (k.outline s.prefixes).predicate ::
      (k.outline s.prefixes).demand.iri?.toList =
        (k.predicate :: k.value.name?.toList).map (·.identity s.prefixes) := by
    intro k
    simp only [Constraint.outline, Demand.iri?_demand, List.map_cons]
    cases k.value.name? <;> rfl
  simp only [Schema.outline, Schema.names, List.flatMap_map, List.map_flatMap]
  congr 1
  funext d
  simp only [ShapeOutline.iris, Declaration.outline, Declaration.names, List.flatMap_map,
    hconstraint, List.map_cons, List.map_flatMap]

namespace Compiler

variable {c : Compiler} {shapes : List Profile.Shape} {iri text : String}

/-- What the datatypes of the shapes stand for has a port where one has to be. -/
def PortsSound (c : Compiler) (shapes : List Profile.Shape) : Prop :=
  ∀ s ∈ shapes, ∀ st ∈ s.statements, ∀ text iri, st.datatype = some text →
    c.iri? text = some iri → Iri.hasSoundPort iri.toList = true

theorem exists_expand_of_written {schema : Schema} {ws : List Warning}
    (h : (c.compile shapes).result = .ok (schema, ws))
    (hiri : iri ∈ schema.outline.flatMap ShapeOutline.iris) :
    ∃ n : Name, n.expand c.prefixes = some iri := by
  rw [Schema.iris_outline, (sound_of_compile h).1] at hiri
  obtain ⟨n, hn, rfl⟩ := List.mem_map.1 hiri
  obtain ⟨iri, hx⟩ := exists_expand_of_compile h hn
  exact ⟨n, by rw [hx, Name.identity_of_expand hx]⟩

theorem isIri_of_datatype {n : Name} (h : c.resolving.datatype text = .ok n)
    (hi : c.iri? text = some iri) : isIri iri.toList = true := by
  obtain ⟨n, expanded, hdeclared, -, hx⟩ := datatype_resolving_eq_ok_iff.1 h
  rw [iri?_of_read (declaredName_eq_ok_iff.1 hdeclared).1, hx] at hi
  cases hi
  exact expanded.valid

/-- What is compiled with the datatypes as they are written is compiled with them expanded, unless
the port of one is none. -/
theorem exists_resolving_iff (hj : c.prefixes.Judged) {r : Schema × List Warning}
    (h : (c.verbatim.compile shapes).result = .ok r) :
    (∃ r', (c.resolving.compile shapes).result = .ok r') ↔ c.PortsSound shapes := by
  refine ⟨?_, ?_⟩
  · rintro ⟨⟨schema', ws'⟩, hr'⟩ s hs st hst text iri hd hi
    obtain ⟨table, -, hshapes⟩ := gives_of_compile hr'
    obtain ⟨d, -, -, hconstraints⟩ := exists_of_mem_left hshapes hs
    obtain ⟨k, -, ws, hg⟩ := exists_of_mem_left hconstraints hst
    refine Iri.hasSoundPort_of_isIri ?_
    generalize k.value = v at hg
    cases hg with
    | datatype hd' hv hk hn =>
      obtain rfl := Option.some.inj (hd.symm.trans hd')
      exact isIri_of_datatype hn hi
    | reference hd' => simp [hd'] at hd
    | dropped hd' => simp [hd'] at hd
    | kind hd' => simp [hd'] at hd
  · intro hports
    cases hr' : (c.resolving.compile shapes).result with
    | ok r' => exact ⟨r', rfl⟩
    | error e =>
      exfalso
      rcases compile_fails_verbatim hr' with he | ⟨s, hs, st, hst, text, hd, hmis⟩
      · rw [h] at he
        cases he
      · obtain ⟨hread, hx, hfault⟩ := hmis
        have hi : c.iri? text = some _ := (iri?_of_read hread).trans hx
        have hvalid := (hj.isIri_expand_iff hx).2 (hports s hs st hst text _ hd hi)
        obtain ⟨n, hn⟩ := exists_ofIri_iff.2 hvalid
        rw [hfault] at hn
        cases hn

theorem portsSound_of_closed (hj : c.prefixes.Judged) (hclosed : c.prefixes.Closed) :
    c.PortsSound shapes := by
  intro s _ st _ text iri _ hi
  obtain ⟨n, -, hx⟩ := iri?_eq_some_iff.1 hi
  exact Iri.hasSoundPort_of_isIri (hj.isIri_expand hclosed hx)

/-- A name of a declared namespace stands for an absolute IRI exactly if no port that is none follows
a host, and always where the namespace does not end in its authority. The same holds of every IRI in
the JSON text of a compiled schema, and expanding the datatypes makes no other compilation fail than
those in which a datatype leads out of the IRIs so. -/
theorem expansions_valid (c : Compiler) (hj : c.prefixes.Judged) :
    (∀ (space : PrefixName) (ending : LocalName) (iri : String),
      c.prefixes.get? space.text = some iri →
        (Name.short space ending).expand c.prefixes = some (iri ++ ending.text) ∧
        ((∃ n, Name.ofIri (iri ++ ending.text) = .ok n) ↔
          Iri.hasSoundPort (iri ++ ending.text).toList = true) ∧
        (Iri.openAuthority? iri.toList = none → ∃ n, Name.ofIri (iri ++ ending.text) = .ok n)) ∧
    (∀ shapes schema ws, (c.compile shapes).result = .ok (schema, ws) →
      (∀ layout : Layout, Json.read (schema.write { layout with format := .shexJ }) =
        some (ShapeOutline.datumOfAll schema.outline)) ∧
      ∀ iri ∈ schema.outline.flatMap ShapeOutline.iris,
        ((∃ n, Name.ofIri iri = .ok n) ↔ Iri.hasSoundPort iri.toList = true) ∧
        (c.prefixes.Closed → ∃ n, Name.ofIri iri = .ok n)) ∧
    ∀ shapes r, (c.verbatim.compile shapes).result = .ok r →
      ((∃ r', (c.resolving.compile shapes).result = .ok r') ↔ c.PortsSound shapes) ∧
      (c.prefixes.Closed → ∃ r', (c.resolving.compile shapes).result = .ok r') := by
  refine ⟨?_, ?_, ?_⟩
  · intro space ending iri hget
    simp only [exists_ofIri_iff]
    refine ⟨?_, hj.isIri_append_iff hget ending, fun hclosed => hj.isIri_append hget hclosed ending⟩
    simp [Name.expand, PrefixMap.expand, hget]
  · intro shapes schema ws h
    refine ⟨schema.read_write, ?_⟩
    intro iri hiri
    obtain ⟨n, hx⟩ := exists_expand_of_written h hiri
    simp only [exists_ofIri_iff]
    exact ⟨hj.isIri_expand_iff hx, fun hclosed => hj.isIri_expand hclosed hx⟩
  · intro shapes r h
    have hiff := exists_resolving_iff hj h
    exact ⟨hiff, fun hclosed => hiff.2 (portsSound_of_closed hj hclosed)⟩

theorem judged_ported : ported.prefixes.Judged :=
  (PrefixMap.Judged.empty.declare "" "http://h/" (by decide) (by decide)).declare "p" "http://h:"
    (by decide +kernel) (by decide +kernel)

/-- A port may follow the second namespace, other names lead out of the IRIs. -/
theorem expansions_valid_of_ported : ported.prefixes.Judged ∧
    (∃ n, Name.ofIri "http://h:80" = .ok n) ∧ (¬ ∃ n, Name.ofIri "http://h:abc" = .ok n) ∧
    (∃ schema ws, (ported.compile [numbered "80"]).result = .ok (schema, ws) ∧
      ∀ iri ∈ schema.outline.flatMap ShapeOutline.iris, ∃ n, Name.ofIri iri = .ok n) ∧
    (∃ r, (ported.verbatim.compile [numbered "abc"]).result = .ok r) ∧
    ¬ ∃ r, (ported.resolving.compile [numbered "abc"]).result = .ok r := by
  obtain ⟨hnames, hwritten, hresolving⟩ := expansions_valid ported judged_ported
  refine ⟨judged_ported, ?_, ?_, ?_, ?_⟩
  · exact (hnames ⟨"p", by decide +kernel⟩ ⟨"80", by decide +kernel⟩ "http://h:" (by decide)).2.1.2
      (by decide +kernel)
  · intro h
    have hport := (hnames ⟨"p", by decide +kernel⟩ ⟨"abc", by decide +kernel⟩ "http://h:"
      (by decide)).2.1.1 h
    revert hport
    decide +kernel
  · obtain ⟨⟨schema, ws⟩, h⟩ := failure?_eq_none_iff.1 (show failure?
      (ported.compile [numbered "80"]).result = none by decide +kernel)
    have hports : (ported.compile [numbered "80"]).result.toOption.all
        (fun r : Schema × List Warning => (r.1.outline.flatMap ShapeOutline.iris).all
          fun iri => Iri.hasSoundPort iri.toList) = true := by decide +kernel
    simp only [h, Except.toOption, Option.all_some, List.all_eq_true] at hports
    exact ⟨schema, ws, h, fun iri hiri =>
      ((hwritten _ schema ws h).2 iri hiri).1.2 (hports iri hiri)⟩
  · obtain ⟨r, hr⟩ := failure?_eq_none_iff.1 (show failure?
      (ported.verbatim.compile [numbered "abc"]).result = none by decide +kernel)
    refine ⟨⟨r, hr⟩, fun hex => ?_⟩
    have hports := (hresolving _ r hr).1.1 hex (numbered "abc") (by simp) _
      (show { property := "q", datatype := some "p:abc" } ∈ (numbered "abc").statements by decide)
      "p:abc" "http://h:abc" rfl (by decide +kernel)
    revert hports
    decide +kernel

/-- A declared namespace and a valid name that stand for no IRI: it is written all the same, and the
profile is no longer compiled when datatypes are expanded. -/
theorem expansion_invalid_of_ported : ported.prefixes.Judged ∧
    (∃ n, Name.ofParts "p" "abc" = .ok n ∧ n.expand ported.prefixes = some "http://h:abc") ∧
    (∃ e, Name.ofIri "http://h:abc" = .error e) ∧
    (∃ schema ws, (ported.verbatim.compile [numbered "abc"]).result = .ok (schema, ws) ∧
      "http://h:abc" ∈ schema.outline.flatMap ShapeOutline.iris) ∧
    ∃ e, (ported.resolving.compile [numbered "abc"]).result = .error e := by
  refine ⟨judged_ported, ?_, ?_, ?_, ?_⟩
  · exact ⟨.short ⟨"p", by decide +kernel⟩ ⟨"abc", by decide +kernel⟩, by decide +kernel, by decide⟩
  · obtain ⟨e, he⟩ := Option.isSome_iff_exists.1 (show (failure?
      (Name.ofIri "http://h:abc")).isSome by decide +kernel)
    exact ⟨e, failure?_eq_some_iff.1 he⟩
  · have hiris : (ported.verbatim.compile [numbered "abc"]).result.toOption.map
        (fun r : Schema × List Warning =>
          decide ("http://h:abc" ∈ r.1.outline.flatMap ShapeOutline.iris)) = some true := by
      decide +kernel
    cases h : (ported.verbatim.compile [numbered "abc"]).result with
    | error e => simp [h, Except.toOption] at hiris
    | ok r =>
      obtain ⟨schema, ws⟩ := r
      exact ⟨schema, ws, rfl, by simpa [h, Except.toOption] using hiris⟩
  · obtain ⟨e, he⟩ := Option.isSome_iff_exists.1 (show (failure?
      (ported.resolving.compile [numbered "abc"]).result).isSome by decide +kernel)
    exact ⟨e, failure?_eq_some_iff.1 he⟩

end Compiler

end TabularShapes
