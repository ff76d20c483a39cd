import TabularShapes.Proofs.Compile.Result
import TabularShapes.Proofs.Writing.Document
import TabularShapes.Writing.Write

/-! Datatypes that are expanded by the namespaces of their own schema. A compiler that does so
differs from one that leaves them as they are written in how it spells datatypes, which the JSON
document does not show, and in what it refuses: a datatype whose expansion is no IRI. -/

namespace TabularShapes

/-- Two values of which the second has the name of a datatype in full. -/
inductive Value.Unfolds (m : PrefixMap) : Value → Value → Prop
  | datatype {n : Name} {iri : Iri} (h : n.expand m = some iri.text) :
      Unfolds m (.datatype n) (.datatype (.full iri))
  | other {v : Value} (h : ∀ n, v ≠ .datatype n) : Unfolds m v v

structure Constraint.Unfolds (m : PrefixMap) (k k' : Constraint) : Prop where
  predicate : k.predicate = k'.predicate
  value : k.value.Unfolds m k'.value
  cardinality : k.cardinality = k'.cardinality
  label : k.label = k'.label

structure Declaration.Unfolds (m : PrefixMap) (d d' : Declaration) : Prop where
  id : d.id = d'.id
  label : d.label = d'.label
  constraints : List.Forall₂ (Constraint.Unfolds m) d.constraints d'.constraints

/-- Two schemas of which the second has the names of datatypes in full, by their namespaces. -/
structure Schema.Unfolds (m : PrefixMap) (s s' : Schema) : Prop where
  prefixes : s.prefixes = m
  prefixes' : s'.prefixes = m
  declarations : List.Forall₂ (Declaration.Unfolds m) s.declarations s'.declarations

variable {m : PrefixMap}

theorem Value.Unfolds.value_eq {v v' : Value} (h : v.Unfolds m v') :
    Document.value m v = Document.value m v' := by
  cases h with
  | datatype h => simp [Document.value, Name.identity_of_expand h]
  | other => rfl

theorem Constraint.Unfolds.constraint_eq {k k' : Constraint} (h : k.Unfolds m k') :
    Document.constraint m k = Document.constraint m k' :=
  Document.constraint_congr (by rw [h.predicate]) h.value.value_eq h.cardinality

theorem Declaration.Unfolds.declaration_eq {d d' : Declaration} (h : d.Unfolds m d') :
    Document.declaration m d = Document.declaration m d' :=
  Document.declaration_congr (by rw [h.id]) (h.constraints.imp fun _ _ hk => hk.constraint_eq)

theorem Schema.Unfolds.document_eq {s s' : Schema} (h : s.Unfolds m s') :
    s.document = s'.document := by
  obtain ⟨rfl, hm, hds⟩ := h
  obtain ⟨m, ds⟩ := s
  obtain ⟨m', ds'⟩ := s'
  obtain rfl : m' = m := hm
  exact Document.document_congr (hds.imp fun _ _ hd => hd.declaration_eq)

theorem Schema.Unfolds.write_eq {s s' : Schema} (h : s.Unfolds m s') {layout : Layout}
    (hj : layout.format = .shexJ) : s.write layout = s'.write layout := by
  simp only [Schema.write, hj, h.document_eq]

namespace Compiler

open Profile (occurrences)

def verbatim (c : Compiler) : Compiler := { c with resolver := Resolver.none }

def resolving (c : Compiler) : Compiler := { c with resolver := c.prefixes.resolver }

/-- What a datatype fails with that is a name of a declared namespace, but whose expansion is no
IRI. -/
inductive Misexpands (c : Compiler) (text : String) : CompileError → Prop
  | intro {n : Name} {iri : String} {fault : NameError} (hr : Name.read text = .ok n)
      (hx : n.expand c.prefixes = some iri) (hf : Name.ofIri iri = .error fault) :
      Misexpands c text (.invalidName text (.invalid fault))

variable {c : Compiler} {table : ShapeTable} {shapes : List Profile.Shape} {shape text : String}
  {st : Profile.Statement} {v v' : Value} {ws : List Warning} {e : CompileError} {n' : Name}

theorem datatype_verbatim (c : Compiler) (text : String) :
    c.verbatim.datatype text = c.declaredName text := by
  unfold datatype declaredName
  congr 1
  funext n
  cases n with
  | full => rfl
  | short => rfl

/-- A datatype is expanded by reading it as a declared name, and its IRI as a name. -/
theorem datatype_resolving (c : Compiler) (text : String) :
    c.resolving.datatype text = c.declaredName text >>= fun n =>
      (Name.ofIri (n.identity c.prefixes)).mapError fun e => .invalidName text (.invalid e) := by
  cases hp : parse text with
  | error e => simp [datatype, declaredName, hp, bind, Except.bind]
  | ok n =>
    cases n with
    | full iri =>
      simp [datatype, declaredName, hp, bind, Except.bind, Name.parts?, checkDeclared,
        Name.undeclared?, Name.ofIri_text, Except.mapError]
    | short space ending =>
      cases hx : c.prefixes.get? space.text <;>
        simp [datatype, declaredName, hp, bind, Except.bind, Name.parts?, checkDeclared, resolving,
          Name.undeclared?, Name.identity, Name.expand, PrefixMap.resolver, PrefixMap.expand,
          PrefixMap.declares, hx]

theorem datatype_resolving_eq_ok_iff : c.resolving.datatype text = .ok n' ↔
    ∃ n iri, c.declaredName text = .ok n ∧ n' = .full iri ∧
      n.expand c.prefixes = some iri.text := by
  simp only [datatype_resolving, bind_eq_ok_iff, mapError_eq_ok_iff, Name.ofIri_eq_ok_iff]
  refine ⟨?_, ?_⟩
  · intro h
    obtain ⟨n, hn, iri, rfl, hiri⟩ := h
    obtain ⟨x, hx⟩ := Name.exists_expand_iff.2 (declaredName_eq_ok_iff.1 hn).2
    rw [Name.identity_of_expand hx] at hiri
    exact ⟨n, iri, hn, rfl, hiri ▸ hx⟩
  · intro h
    obtain ⟨n, iri, hn, rfl, hx⟩ := h
    exact ⟨n, hn, iri, rfl, (Name.identity_of_expand hx).symm⟩

theorem datatype_resolving_eq_error_iff :
    c.resolving.datatype text = .error e ↔ c.NameFault text e ∨ c.Misexpands text e := by
  rw [datatype_resolving, bind_eq_error_iff, declaredName_eq_error_iff]
  apply or_congr_right
  simp only [mapError_eq_error_iff]
  refine ⟨?_, ?_⟩
  · intro h
    obtain ⟨n, hn, fault, hf, rfl⟩ := h
    obtain ⟨hr, hd⟩ := declaredName_eq_ok_iff.1 hn
    obtain ⟨iri, hx⟩ := Name.exists_expand_iff.2 hd
    rw [Name.identity_of_expand hx] at hf
    exact .intro hr hx hf
  · intro h
    obtain ⟨hr, hx, hf⟩ := h
    refine ⟨_, declaredName_eq_ok_iff.2 ⟨hr, Name.declared_of_expand hx⟩, _, ?_, rfl⟩
    rw [Name.identity_of_expand hx, hf]

theorem Gives.verbatim (h : c.resolving.Gives table shape st v' ws) :
    ∃ v, c.verbatim.Gives table shape st v ws ∧ v.Unfolds c.prefixes v' := by
  cases h with
  | datatype hd hv hk hn =>
    obtain ⟨n, iri, hdeclared, rfl, hx⟩ := datatype_resolving_eq_ok_iff.1 hn
    exact ⟨.datatype n, .datatype hd hv hk (datatype_verbatim c _ ▸ hdeclared), .datatype hx⟩
  | reference hd hv hk hi hl =>
    exact ⟨_, .reference hd hv hk hi hl, .other fun n => Value.noConfusion⟩
  | dropped hd hv hk hi hl hc =>
    exact ⟨_, .dropped hd hv hk hi hl hc, .other (valueOfKind_ne_datatype _)⟩
  | kind hd hv => exact ⟨_, .kind hd hv, .other (valueOfKind_ne_datatype _)⟩

theorem Refuses.verbatim (h : c.resolving.Refuses table shape st e) :
    c.verbatim.Refuses table shape st e ∨
      ∃ text, st.datatype = some text ∧ c.Misexpands text e := by
  cases h with
  | conflict hd hv => exact .inl (.conflict hd hv)
  | datatypeKind hd hv hk hl => exact .inl (.datatypeKind hd hv hk hl)
  | datatype hd hv hk hn =>
    apply (datatype_resolving_eq_error_iff.1 hn).imp
    · intro hfault
      refine .datatype hd hv hk ?_
      rw [datatype_verbatim]
      exact declaredName_eq_error_iff.2 hfault
    · intro hmis
      exact ⟨_, hd, hmis⟩
  | referenceKind hd hv hk => exact .inl (.referenceKind hd hv hk)
  | reference hd hv hk he => exact .inl (.reference hd hv hk (he.of_prefixes rfl))
  | dangling hd hv hk hi hl hc => exact .inl (.dangling hd hv hk hi hl hc)

theorem constraint_verbatim {k' : Constraint}
    (h : (c.resolving.constraint table shape st).result = .ok (k', ws)) :
    ∃ k, (c.verbatim.constraint table shape st).result = .ok (k, ws) ∧
      k.Unfolds c.prefixes k' := by
  obtain ⟨p, v', hp, hg, rfl⟩ := constraint_eq_ok_iff.1 h
  obtain ⟨v, hg, hv⟩ := hg.verbatim
  exact ⟨_, constraint_eq_ok_iff.2 ⟨p, v, hp, hg, rfl⟩, rfl, hv, rfl, rfl⟩

theorem Declares.verbatim {s : Profile.Shape} {r' : Declaration × List Warning}
    (h : c.resolving.Declares table s r') :
    ∃ r, c.verbatim.Declares table s r ∧ r.1.Unfolds c.prefixes r'.1 ∧ r'.2 = r.2 := by
  obtain ⟨hid, hlabel, rs', hrs', hks', hws'⟩ := h
  have hstep : ∀ st (r' : Constraint × List Warning),
      (c.resolving.constraint table s.id st).result = .ok r' →
      ∃ r, (c.verbatim.constraint table s.id st).result = .ok r ∧
        r.1.Unfolds c.prefixes r'.1 ∧ r'.2 = r.2 := by
    intro st r' hr'
    obtain ⟨k, hk, hunfolds⟩ := constraint_verbatim hr'
    exact ⟨(k, r'.2), hk, hunfolds, rfl⟩
  obtain ⟨rs, hrs, hunfolds⟩ := exists_forall₂_of_step hrs' hstep
  obtain ⟨hconstraints, hws⟩ := collected_of_forall₂ hunfolds
  rw [← hks'] at hconstraints
  exact ⟨(⟨r'.1.id, r'.1.label, rs.map (·.1)⟩, rs.flatMap (·.2)),
    ⟨hid, hlabel, rs, hrs, rfl, rfl⟩, ⟨rfl, rfl, hconstraints⟩, hws'.trans hws⟩

theorem compile_verbatim {schema' : Schema}
    (h : (c.resolving.compile shapes).result = .ok (schema', ws)) :
    ∃ schema, (c.verbatim.compile shapes).result = .ok (schema, ws) ∧
      schema.Unfolds c.prefixes schema' := by
  obtain ⟨table, rs', hn, hrs', rfl, rfl⟩ := compile_eq_ok_iff.1 h
  obtain ⟨rs, hrs, hunfolds⟩ := exists_forall₂_of_step hrs' fun s r' hr' => hr'.verbatim
  obtain ⟨hdeclarations, hws⟩ := collected_of_forall₂ hunfolds
  have hn' : c.verbatim.nameShapes [] shapes = .ok table := hn ▸ nameShapes_of_prefixes rfl
  exact ⟨⟨c.prefixes, rs.map (·.1)⟩, compile_eq_ok_iff.2 ⟨table, rs, hn', hrs, rfl, hws⟩,
    rfl, rfl, hdeclarations⟩

theorem fault?_verbatim_of_none {o : Profile.Shape × Profile.Statement}
    (h : c.resolving.fault? table o = none) : c.verbatim.fault? table o = none := by
  obtain ⟨k', ws, hk'⟩ := fault?_eq_none_iff.1 h
  obtain ⟨k, hk, -⟩ := constraint_verbatim hk'
  exact fault?_eq_none_iff.2 ⟨k, ws, hk⟩

theorem fault?_verbatim_of_some {o : Profile.Shape × Profile.Statement}
    (h : c.resolving.fault? table o = some e) : c.verbatim.fault? table o = some e ∨
      ∃ text, o.2.datatype = some text ∧ c.Misexpands text e := by
  rw [fault?_eq_some_iff] at h ⊢
  obtain hp | ⟨p, hp, hr⟩ := h
  · exact .inl (.inl (hp.of_prefixes rfl))
  · apply hr.verbatim.imp_left
    intro hr
    exact .inr ⟨p, hp, hr⟩

def MisexpandsIn (c : Compiler) (shapes : List Profile.Shape) (e : CompileError) : Prop :=
  ∃ s ∈ shapes, ∃ st ∈ s.statements, ∃ text, st.datatype = some text ∧ c.Misexpands text e

theorem compile_fails_verbatim (h : (c.resolving.compile shapes).result = .error e) :
    (c.verbatim.compile shapes).result = .error e ∨ c.MisexpandsIn shapes e := by
  rw [compile_eq_error_iff] at h ⊢
  obtain hn | ⟨table, hn, he⟩ := h
  · left
    left
    rw [← hn]
    exact nameShapes_of_prefixes rfl
  -- the statements before the one that is refused are not refused with datatypes as written
  obtain ⟨before, o, after, hsplit, ho, hbefore⟩ := List.findSome?_eq_some_iff.1 he
  obtain hverbatim | hmis := fault?_verbatim_of_some ho
  · left
    right
    refine ⟨table, hn ▸ nameShapes_of_prefixes rfl, ?_⟩
    apply List.findSome?_eq_some_iff.2
    exact ⟨before, o, after, hsplit, hverbatim, fun d hd => fault?_verbatim_of_none (hbefore d hd)⟩
  · right
    have hmem : o ∈ occurrences shapes := by simp [hsplit]
    simp only [occurrences, List.mem_flatMap, List.mem_map] at hmem
    obtain ⟨s, hs, st, hst, rfl⟩ := hmem
    exact ⟨s, hs, st, hst, hmis⟩

/-- Expanding the datatypes by the namespaces of the schema changes their spelling only. What is
compiled with it is compiled without it, to the same schema up to the names of datatypes, with the
same warnings and the same JSON text. What is compiled only without it has a datatype whose
expansion is no IRI, and what is compiled in neither way fails alike, unless there is such a
datatype. -/
theorem resolving_refines_verbatim (c : Compiler) (shapes : List Profile.Shape) :
    (∀ schema' ws, (c.resolving.compile shapes).result = .ok (schema', ws) →
      ∃ schema, (c.verbatim.compile shapes).result = .ok (schema, ws) ∧
        schema.Unfolds c.prefixes schema' ∧
        ∀ layout : Layout, layout.format = .shexJ → schema.write layout = schema'.write layout) ∧
    (∀ r e, (c.verbatim.compile shapes).result = .ok r →
      (c.resolving.compile shapes).result = .error e → c.MisexpandsIn shapes e) ∧
    ∀ e, (c.verbatim.compile shapes).result = .error e →
      ∃ e', (c.resolving.compile shapes).result = .error e' ∧
        (e' = e ∨ c.MisexpandsIn shapes e') := by
  refine ⟨?_, ?_, ?_⟩
  · intro schema' ws h
    obtain ⟨schema, hok, hunfolds⟩ := compile_verbatim h
    exact ⟨schema, hok, hunfolds, fun layout hj => hunfolds.write_eq hj⟩
  · intro r e hok h
    obtain h | hmis := compile_fails_verbatim h
    · rw [hok] at h
      cases h
    · exact hmis
  · intro e h
    cases h' : (c.resolving.compile shapes).result with
    | ok r =>
      obtain ⟨schema, hok, -⟩ := compile_verbatim h'
      rw [hok] at h
      cases h
    | error e' =>
      refine ⟨e', rfl, (compile_fails_verbatim h').imp_left ?_⟩
      intro he
      rw [h] at he
      exact (Except.error.inj he).symm

/-- A namespace that ends where the number of a port may follow. -/
def ported : Compiler := { prefixes := ⟨[("", "http://h/"), ("p", "http://h:")]⟩ }

def numbered (ending : String) : Profile.Shape :=
  { id := "A", statements := [{ property := "q", datatype := some "d" },
      { property := "q", datatype := some ("p:" ++ ending) }] }

def referring : Profile.Shape :=
  { id := "B", statements := [{ property := "q", valueShape := some "C" }] }

theorem resolving_refines_verbatim_of_ported :
    (∃ schema schema' ws, (ported.resolving.compile [numbered "80"]).result = .ok (schema', ws) ∧
      (ported.verbatim.compile [numbered "80"]).result = .ok (schema, ws) ∧
      schema.Unfolds ported.prefixes schema') ∧
    (∃ r e, (ported.verbatim.compile [numbered "abc"]).result = .ok r ∧
      (ported.resolving.compile [numbered "abc"]).result = .error e ∧
      ported.MisexpandsIn [numbered "abc"] e) ∧
    ∃ e', (ported.verbatim.compile [numbered "abc", referring]).result =
        .error (.danglingReference "C" "B" "q") ∧
      (ported.resolving.compile [numbered "abc", referring]).result = .error e' ∧
      (e' = .danglingReference "C" "B" "q" ∨
        ported.MisexpandsIn [numbered "abc", referring] e') := by
  refine ⟨?_, ?_, ?_⟩
  · obtain ⟨⟨schema', ws⟩, h⟩ := failure?_eq_none_iff.1 (show failure?
      (ported.resolving.compile [numbered "80"]).result = none by decide +kernel)
    obtain ⟨schema, hok, hunfolds, -⟩ := (resolving_refines_verbatim ported _).1 schema' ws h
    exact ⟨schema, schema', ws, h, hok, hunfolds⟩
  · obtain ⟨r, hr⟩ := failure?_eq_none_iff.1 (show failure?
      (ported.verbatim.compile [numbered "abc"]).result = none by decide +kernel)
    obtain ⟨e, he⟩ := Option.isSome_iff_exists.1 (show (failure?
      (ported.resolving.compile [numbered "abc"]).result).isSome by decide +kernel)
    have he := failure?_eq_some_iff.1 he
    exact ⟨r, e, hr, he, (resolving_refines_verbatim ported _).2.1 r e hr he⟩
  · have he : (ported.verbatim.compile [numbered "abc", referring]).result =
        .error (.danglingReference "C" "B" "q") :=
      failure?_eq_some_iff.1 (by decide +kernel)
    obtain ⟨e', he', hor⟩ := (resolving_refines_verbatim ported _).2.2 _ he
    exact ⟨e', he, he', hor⟩

end Compiler

end TabularShapes
