import TabularShapes.Proofs.Compile.Datatypes
import TabularShapes.Proofs.Compile.Dropping

/-! Compilation place by place. Each shape makes the declaration at its place and each statement the
constraint at its place. The value of a constraint is decided by the three columns of its statement
that are about values; a kind of node beside a datatype or beside a reference that is kept leaves no
trace. -/

namespace TabularShapes.Compiler

variable {c : Compiler} {table : ShapeTable} {shapes : List Profile.Shape} {s : Profile.Shape}
  {shape : String} {st : Profile.Statement} {v v' : Value} {ws : List Warning}

/-- The value that a statement asks for in a profile of the shapes. -/
inductive Decides (c : Compiler) (shapes : List Profile.Shape) (st : Profile.Statement) :
    Value → Prop
  | datatype {text : String} {n : Name} (hd : st.datatype = some text) (hv : st.valueShape = none)
      (hk : ∀ k, st.nodeKind = some k → k = .literal) (hn : c.DatatypeIs text n) :
      Decides c shapes st (.datatype n)
  | reference {text iri : String} {t : Profile.Shape} {n : Name} (hd : st.datatype = none)
      (hv : st.valueShape = some text) (hk : st.nodeKind ≠ some .literal)
      (hi : c.iri? text = some iri) (ht : t ∈ shapes) (hti : c.iri? t.id = some iri)
      (hn : Name.read t.id = .ok n) : Decides c shapes st (.reference n)
  | dropped {text iri : String} (hd : st.datatype = none) (hv : st.valueShape = some text)
      (hk : st.nodeKind ≠ some .literal) (hi : c.iri? text = some iri)
      (ht : ∀ t ∈ shapes, c.iri? t.id ≠ some iri) (hc : c.lenient = true) :
      Decides c shapes st (st.nodeKind.elim .any .nodeKind)
  | kind {kind : NodeKind} (hd : st.datatype = none) (hv : st.valueShape = none)
      (hk : st.nodeKind = some kind) : Decides c shapes st (.nodeKind kind)
  | any (hd : st.datatype = none) (hv : st.valueShape = none) (hk : st.nodeKind = none) :
      Decides c shapes st .any

structure StatementMakes (c : Compiler) (shapes : List Profile.Shape) (st : Profile.Statement)
    (k : Constraint) : Prop where
  predicate : Name.read st.property = .ok k.predicate
  label : k.label = st.label
  cardinality : k.cardinality = Cardinality.ofFlags st.mandatory st.repeatable
  value : ∀ v, c.Decides shapes st v ↔ v = k.value

structure ShapeMakes (c : Compiler) (shapes : List Profile.Shape) (s : Profile.Shape)
    (d : Declaration) : Prop where
  id : Name.read s.id = .ok d.id
  label : d.label = s.label
  constraints : List.Forall₂ (c.StatementMakes shapes) s.statements d.constraints

/-! ### Values -/

theorem Gives.decides (hn : c.nameShapes [] shapes = .ok table) (h : c.Gives table shape st v ws) :
    c.Decides shapes st v := by
  cases h with
  | datatype hd hv hk ht => exact .datatype hd hv hk (datatype_eq_ok_iff.1 ht)
  | reference hd hv hk hi hl =>
    obtain ⟨t, ht, hr, hx⟩ := (lookup_eq_some_iff hn).1 hl
    exact .reference hd hv hk hi ht (iri?_eq_some_iff.2 ⟨_, hr, hx⟩) hr
  | dropped hd hv hk hi hl hc => exact .dropped hd hv hk hi ((lookup_eq_none_iff hn).1 hl) hc
  | kind hd hv =>
    cases hk : st.nodeKind with
    | none => exact .any hd hv hk
    | some kind => exact .kind hd hv hk

theorem Decides.gives (hn : c.nameShapes [] shapes = .ok table) (h : c.Decides shapes st v)
    (shape : String) : ∃ ws, c.Gives table shape st v ws := by
  cases h with
  | datatype hd hv hk ht => exact ⟨_, .datatype hd hv hk (datatype_eq_ok_iff.2 ht)⟩
  | reference hd hv hk hi ht hti hr =>
    have hl := (lookup_eq_some_iff hn).2 ⟨_, ht, hr, (iri?_of_read hr).symm.trans hti⟩
    exact ⟨_, .reference hd hv hk hi hl⟩
  | dropped hd hv hk hi ht hc =>
    exact ⟨_, .dropped hd hv hk hi ((lookup_eq_none_iff hn).2 ht) hc⟩
  | kind hd hv hk =>
    refine ⟨[], ?_⟩
    have hg : c.Gives table shape st (valueOfKind st.nodeKind) [] := .kind hd hv
    rwa [hk] at hg
  | any hd hv hk =>
    refine ⟨[], ?_⟩
    have hg : c.Gives table shape st (valueOfKind st.nodeKind) [] := .kind hd hv
    rwa [hk] at hg

theorem Gives.decides_iff (hn : c.nameShapes [] shapes = .ok table)
    (h : c.Gives table shape st v ws) : c.Decides shapes st v' ↔ v' = v := by
  refine ⟨?_, ?_⟩
  · intro h'
    obtain ⟨ws', hg⟩ := h'.gives hn shape
    have heq := (value_eq_ok_iff.2 hg).symm.trans (value_eq_ok_iff.2 h)
    exact (Prod.mk.inj (Except.ok.inj heq)).1
  · rintro rfl
    exact h.decides hn

theorem statementMakes_of_constraint (hn : c.nameShapes [] shapes = .ok table) {k : Constraint}
    (h : (c.constraint table shape st).result = .ok (k, ws)) : c.StatementMakes shapes st k := by
  obtain ⟨p, v, hp, hg, rfl⟩ := constraint_eq_ok_iff.1 h
  exact ⟨(declaredName_eq_ok_iff.1 hp).1, rfl, rfl, fun v' => hg.decides_iff hn⟩

theorem Declares.makes (hn : c.nameShapes [] shapes = .ok table)
    {r : Declaration × List Warning} (h : c.Declares table s r) : c.ShapeMakes shapes s r.1 := by
  obtain ⟨hid, hlabel, rs, hrs, hks, -⟩ := h
  refine ⟨(declaredName_eq_ok_iff.1 hid).1, hlabel, ?_⟩
  rw [hks]
  refine List.forall₂_map_right_iff.2 (hrs.imp ?_)
  intro st k hk
  exact statementMakes_of_constraint hn hk

/-! ### Kinds of nodes that leave no trace -/

/-- The statement without its kind of node, if that stands beside a datatype or beside a reference to
one of the shapes. -/
def unkinded (c : Compiler) (shapes : List Profile.Shape) (st : Profile.Statement) :
    Profile.Statement :=
  if st.datatype.isSome || st.valueShape.any (c.defines shapes) then { st with nodeKind := none }
  else st

def unkindedShape (c : Compiler) (shapes : List Profile.Shape) (s : Profile.Shape) :
    Profile.Shape :=
  { s with statements := s.statements.map (c.unkinded shapes) }

theorem constraintOf_unkinded (c : Compiler) (shapes : List Profile.Shape)
    (st : Profile.Statement) (p : Name) (v : Value) :
    constraintOf (c.unkinded shapes st) p v = constraintOf st p v := by
  unfold unkinded
  split <;> rfl

theorem property_unkinded (c : Compiler) (shapes : List Profile.Shape) (st : Profile.Statement) :
    (c.unkinded shapes st).property = st.property := by
  unfold unkinded
  split <;> rfl

theorem Gives.unkinded (hn : c.nameShapes [] shapes = .ok table)
    (h : c.Gives table shape st v ws) : c.Gives table shape (c.unkinded shapes st) v ws := by
  cases h with
  | datatype hd hv _ ht =>
    have hst : c.unkinded shapes st = { st with nodeKind := none } := if_pos (by simp [hd])
    rw [hst]
    exact .datatype hd hv (by simp) ht
  | reference hd hv _ hi hl =>
    have hst : c.unkinded shapes st = { st with nodeKind := none } :=
      if_pos (by simp [hv, defines_of_lookup hn hi hl])
    rw [hst]
    exact .reference hd hv (by simp) hi hl
  | dropped hd hv hk hi hl hc =>
    have hst : c.unkinded shapes st = st :=
      if_neg (by simp [hd, hv, (lookup_eq_none_iff_defines hn hi).1 hl])
    rw [hst]
    exact .dropped hd hv hk hi hl hc
  | kind hd hv =>
    have hst : c.unkinded shapes st = st := if_neg (by simp [hd, hv])
    rw [hst]
    exact .kind hd hv

theorem Declares.unkinded (hn : c.nameShapes [] shapes = .ok table)
    {r : Declaration × List Warning} (h : c.Declares table s r) :
    c.Declares table (c.unkindedShape shapes s) r := by
  obtain ⟨hid, hlabel, rs, hrs, hks, hws⟩ := h
  refine ⟨hid, hlabel, rs, List.forall₂_map_left_iff.2 (hrs.imp ?_), hks, hws⟩
  rintro st ⟨k, ws⟩ hk
  obtain ⟨p, v, hp, hg, rfl⟩ := constraint_eq_ok_iff.1 hk
  refine constraint_eq_ok_iff.2 ⟨p, v, ?_, hg.unkinded hn, ?_⟩
  · rwa [property_unkinded]
  · rw [constraintOf_unkinded]

theorem compile_unkinded {r : Schema × List Warning} (h : (c.compile shapes).result = .ok r) :
    (c.compile (shapes.map (c.unkindedShape shapes))).result = .ok r := by
  obtain ⟨schema, ws⟩ := r
  obtain ⟨table, rs, hn, hr, rfl, rfl⟩ := compile_eq_ok_iff.1 h
  refine compile_eq_ok_iff.2 ⟨table, rs, ?_, ?_, rfl, rfl⟩
  · obtain ⟨hentries, hdistinct⟩ := nameShapes_eq_ok_iff.1 hn
    exact nameShapes_eq_ok_iff.2 ⟨List.forall₂_map_left_iff.2 hentries, hdistinct⟩
  · refine List.forall₂_map_left_iff.2 (hr.imp ?_)
    intro s r hs
    exact hs.unkinded hn

/-- A compiled schema has the namespaces of the compiler and one declaration for each shape, in order.
Each declaration has the name and the label of its shape and one constraint for each statement, in
order, with the value that the columns of this statement decide. The schema is the same without the
kinds of nodes beside datatypes and beside references to the shapes. -/
theorem compile_positionwise {schema : Schema} (h : (c.compile shapes).result = .ok (schema, ws)) :
    schema.prefixes = c.prefixes ∧
      List.Forall₂ (c.ShapeMakes shapes) shapes schema.declarations ∧
      (c.compile (shapes.map (c.unkindedShape shapes))).result = .ok (schema, ws) := by
  obtain ⟨table, rs, hn, hr, hschema, -⟩ := compile_eq_ok_iff.1 h
  refine ⟨by rw [hschema], ?_, compile_unkinded h⟩
  rw [hschema]
  refine List.forall₂_map_right_iff.2 (hr.imp ?_)
  intro s r hs
  exact hs.makes hn

/-- The lenient compiler that expands the datatypes of `xsd` and leaves others as they are. -/
def xsdOnly : Compiler :=
  { default with
    resolver := PrefixMap.resolver ⟨[("xsd", "http://www.w3.org/2001/XMLSchema#")]⟩
    lenient := true }

def assorted : List Profile.Shape :=
  [{ id := "A", label := some "a", statements := [
      { property := "p", datatype := some "xsd:date", nodeKind := some .literal },
      { property := "q", datatype := some "own", mandatory := true, label := some "q" },
      { property := "r", valueShape := some "<http://example.org/B>", nodeKind := some .iri },
      { property := "s", valueShape := some "C", nodeKind := some .iri, repeatable := true },
      { property := "t", nodeKind := some .blank },
      { property := "u" }] },
    { id := ":B" }]

theorem compile_positionwise_of_assorted : ∃ schema ws,
    (xsdOnly.compile assorted).result = .ok (schema, ws) ∧ schema.prefixes = defaultPrefixes ∧
    List.Forall₂ (xsdOnly.ShapeMakes assorted) assorted schema.declarations ∧
    (xsdOnly.compile (assorted.map (xsdOnly.unkindedShape assorted))).result = .ok (schema, ws) ∧
    schema.declarations.map (fun d => d.constraints.map fun k => k.value.name?.map Name.written) =
      [[some "<http://www.w3.org/2001/XMLSchema#date>", some ":own", some ":B", none, none, none],
        []] := by
  have hshown : ((xsdOnly.compile assorted).result.toOption.map fun r : Schema × List Warning =>
      r.1.declarations.map fun d => d.constraints.map fun k => k.value.name?.map Name.written) =
      some [[some "<http://www.w3.org/2001/XMLSchema#date>", some ":own", some ":B", none, none,
        none], []] := by decide +kernel
  obtain ⟨⟨schema, ws⟩, h, hvalues⟩ := Option.map_eq_some_iff.1 hshown
  rw [toOption_eq_some_iff] at h
  obtain ⟨hprefixes, hmakes, hunkinded⟩ := compile_positionwise h
  exact ⟨schema, ws, h, hprefixes, hmakes, hunkinded, hvalues⟩

end TabularShapes.Compiler
