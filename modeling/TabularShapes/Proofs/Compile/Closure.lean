import TabularShapes.Proofs.Compile.Dropping
import TabularShapes.Proofs.Writing.Denotation

/-! The JSON document of a compiled schema. Every name in it is written in full, no two shapes have
the same name, and every reference is the name of one of the shapes. -/

namespace TabularShapes.Compiler

variable {c : Compiler} {table : ShapeTable} {shapes : List Profile.Shape} {schema : Schema}
  {ws : List Warning} {text iri shape : String} {st : Profile.Statement} {v : Value}

/-- The IRI that a datatype stands for: the one that the resolver gives for the two parts of its
name, and else the one of the name. -/
def datatypeIri? (c : Compiler) (text : String) : Option String :=
  (Name.read text).toOption.bind fun n =>
    (n.parts?.bind fun (space, ending) => c.resolver space ending).or (n.expand c.prefixes)

/-- What the values of a property have to be by its statement, with names as IRIs. A reference
counts if one of the shapes stands for the same IRI. -/
inductive Demands (c : Compiler) (shapes : List Profile.Shape) (st : Profile.Statement) :
    Demand → Prop
  | datatype {text iri : String} (hd : st.datatype = some text)
      (hi : c.datatypeIri? text = some iri) : Demands c shapes st (.datatype iri)
  | shape {text iri : String} {s : Profile.Shape} (hv : st.valueShape = some text)
      (hi : c.iri? text = some iri) (hs : s ∈ shapes) (hsi : c.iri? s.id = some iri) :
      Demands c shapes st (.shape iri)
  | kind (hd : st.datatype = none)
      (hv : ∀ text, st.valueShape = some text → c.defines shapes text = false) :
      Demands c shapes st (st.nodeKind.elim .any .nodeKind)

/-- What a shape is written as: its own name, its properties and what these demand. -/
structure WrittenAs (c : Compiler) (shapes : List Profile.Shape) (s : Profile.Shape)
    (o : ShapeOutline) : Prop where
  id : c.iri? s.id = some o.id
  constraints : List.Forall₂
    (fun st k => c.iri? st.property = some k.predicate ∧ c.Demands shapes st k.demand)
    s.statements o.constraints

theorem datatypeIri?_of_datatype {n : Name} (h : c.datatype text = .ok n) :
    c.datatypeIri? text = some (n.identity c.prefixes) := by
  obtain ⟨name, hparse, hrest⟩ := bind_eq_ok_iff.1 h
  have hread : Name.read text = .ok name := parse_eq_ok_iff.1 hparse
  simp only [datatypeIri?, hread, Except.toOption, Option.bind_some]
  split at hrest
  · next answer hanswer =>
    rw [hanswer, Option.some_or]
    obtain ⟨iri, hiri, rfl⟩ := map_eq_ok_iff.1 (mapError_eq_ok_iff.1 hrest)
    rw [Iri.ofText] at hiri
    split at hiri
    · cases hiri
      rfl
    · cases hiri
  · next hanswer =>
    obtain ⟨rfl, hdeclared⟩ := checkDeclared_eq_ok_iff.1 hrest
    obtain ⟨iri, hiri⟩ := Name.exists_expand_iff.2 hdeclared
    rw [hanswer, Option.none_or, hiri, Name.identity_of_expand hiri]

theorem Gives.demands (hn : c.nameShapes [] shapes = .ok table)
    (h : c.Gives table shape st v ws) : c.Demands shapes st (v.demand c.prefixes) := by
  have hkind : (valueOfKind st.nodeKind).demand c.prefixes = st.nodeKind.elim .any .nodeKind := by
    cases st.nodeKind <;> rfl
  cases h with
  | datatype hd hv hk hdata => exact .datatype hd (datatypeIri?_of_datatype hdata)
  | reference hd hv hk hi hl =>
    obtain ⟨s, hs, hread, hx⟩ := (lookup_eq_some_iff hn).1 hl
    rw [Value.demand, Name.identity_of_expand hx]
    exact .shape hv hi hs (iri?_eq_some_iff.2 ⟨_, hread, hx⟩)
  | dropped hd hv hk hi hl =>
    rw [hkind]
    refine .kind hd ?_
    intro text ht
    rw [hv] at ht
    cases ht
    exact (lookup_eq_none_iff_defines hn hi).1 hl
  | kind hd hv =>
    rw [hkind]
    refine .kind hd ?_
    intro text ht
    rw [hv] at ht
    cases ht

theorem Declares.writtenAs (hn : c.nameShapes [] shapes = .ok table) {s : Profile.Shape}
    {d : Declaration × List Warning} (h : c.Declares table s d) :
    c.WrittenAs shapes s (d.1.outline c.prefixes) := by
  obtain ⟨hid, -, rs, hrs, hks, -⟩ := h
  refine ⟨iri?_of_declaredName hid, ?_⟩
  rw [Declaration.outline, hks, List.map_map]
  refine List.forall₂_map_right_iff.2 (hrs.imp ?_)
  intro st k hk
  obtain ⟨p, v, hp, hg, hkv⟩ := constraint_eq_ok_iff.1 hk
  simp only [Function.comp, hkv, Constraint.outline, constraintOf]
  exact ⟨iri?_of_declaredName hp, hg.demands hn⟩

theorem map_id_of_writtenAs {os : List ShapeOutline}
    (h : List.Forall₂ (c.WrittenAs shapes) shapes os) :
    os.map (·.id) = c.iris shapes := by
  have hall : ∀ {ss os}, List.Forall₂ (c.WrittenAs shapes) ss os →
      os.map (·.id) = c.iris ss := by
    intro ss os h
    induction h with
    | nil => rfl
    | cons hs _ ih => simp [iris, hs.id, ih]
  exact hall h

theorem mem_ids_of_shape {os : List ShapeOutline}
    (h : List.Forall₂ (c.WrittenAs shapes) shapes os) {o : ShapeOutline} (ho : o ∈ os)
    {k : ConstraintOutline} (hk : k ∈ o.constraints) (hiri : k.demand = .shape iri) :
    iri ∈ os.map (·.id) := by
  obtain ⟨s, -, hs⟩ := exists_of_mem_right h ho
  obtain ⟨st, -, -, hdemand⟩ := exists_of_mem_right hs.constraints hk
  rw [hiri] at hdemand
  generalize hd : Demand.shape iri = demand at hdemand
  cases hdemand with
  | datatype => cases hd
  | shape hv hi ht hti =>
    cases hd
    obtain ⟨o', ho', hwritten⟩ := exists_of_mem_left h ht
    rw [hwritten.id] at hti
    exact List.mem_map.2 ⟨o', ho', Option.some.inj hti⟩
  | kind => cases hkind : st.nodeKind <;> simp [hkind] at hd

/-- The JSON text of a compiled schema denotes one shape for each shape of the profile, written with
the IRIs that the names stand for. No two of them have the same name, and each reference is one of
these names. -/
theorem compile_closed (c : Compiler) (shapes : List Profile.Shape) {schema : Schema}
    {ws : List Warning} (h : (c.compile shapes).result = .ok (schema, ws)) (layout : Layout) :
    Json.read (schema.write { layout with format := .shexJ }) =
      some (ShapeOutline.datumOfAll schema.outline) ∧
    (schema.outline.map (·.id)).Nodup ∧
    (∀ o ∈ schema.outline, ∀ k ∈ o.constraints, ∀ iri, k.demand = .shape iri →
      iri ∈ schema.outline.map (·.id)) ∧
    List.Forall₂ (c.WrittenAs shapes) shapes schema.outline := by
  obtain ⟨table, rs, hn, hr, rfl, -⟩ := compile_eq_ok_iff.1 h
  have hwritten : List.Forall₂ (c.WrittenAs shapes) shapes
      (Schema.outline ⟨c.prefixes, rs.map (·.1)⟩) := by
    rw [Schema.outline, List.map_map]
    refine List.forall₂_map_right_iff.2 (hr.imp ?_)
    intro s d hd
    exact hd.writtenAs hn
  refine ⟨Schema.read_write _ layout, ?_, ?_, hwritten⟩
  · rw [map_id_of_writtenAs hwritten]
    exact (exists_nameShapes_iff.1 ⟨table, hn⟩).distinct
  · intro o ho k hk iri hiri
    exact mem_ids_of_shape hwritten ho hk hiri

def overlapping : Compiler where
  prefixes := ⟨[("a", "http://x/"), ("ab", "http://x/a")]⟩
  resolver := fun space ending => if space = "t" then some ("http://t/" ++ ending) else none
  lenient := true

/-- A shape that refers to itself by another abbreviation, and to one that is not there. -/
def selfReferring : Profile.Shape :=
  { id := "a:ab", statements := [{ property := "a:p", valueShape := some "ab:b" },
      { property := "ab:q", datatype := some "t:date" },
      { property := "ab:r", valueShape := some "ab:c", nodeKind := some .iri }] }

def selfReferringOutline : ShapeOutline :=
  { id := "http://x/ab"
    constraints := [⟨"http://x/p", .shape "http://x/ab", 1, some 1⟩,
      ⟨"http://x/aq", .datatype "http://t/date", 1, some 1⟩,
      ⟨"http://x/ar", .nodeKind .iri, 1, some 1⟩] }

theorem compile_closed_of_overlapping :
    ∃ schema ws, (overlapping.compile [selfReferring]).result = .ok (schema, ws) ∧
      Json.read (schema.write { format := .shexJ }) =
        some (ShapeOutline.datumOfAll [selfReferringOutline]) ∧
      List.Forall₂ (overlapping.WrittenAs [selfReferring]) [selfReferring]
        [selfReferringOutline] := by
  have houtline : (overlapping.compile [selfReferring]).result.toOption.map
      (fun r : Schema × List Warning => r.1.outline) = some [selfReferringOutline] := by
    decide +kernel
  cases h : (overlapping.compile [selfReferring]).result with
  | error e => simp [h, Except.toOption] at houtline
  | ok r =>
    obtain ⟨schema, ws⟩ := r
    obtain ⟨hread, -, -, hwritten⟩ := compile_closed overlapping [selfReferring] h {}
    have hschema : schema.outline = [selfReferringOutline] := by
      simpa [h, Except.toOption] using houtline
    rw [hschema] at hread hwritten
    exact ⟨schema, ws, rfl, hread, hwritten⟩

end TabularShapes.Compiler
