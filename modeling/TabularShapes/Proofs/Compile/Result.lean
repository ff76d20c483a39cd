import TabularShapes.Proofs.Compile.Statement
import TabularShapes.Proofs.Schema.Soundness

/-! What a profile becomes. Each shape makes one declaration, and the schema of all of them is sound,
so that a compilation fails only where a shape cannot be named or a statement is refused. -/

namespace TabularShapes

/-- The statements of the shapes in the order in which they are compiled, each with its shape. -/
def Profile.occurrences (shapes : List Profile.Shape) : List (Profile.Shape × Profile.Statement) :=
  shapes.flatMap fun s => s.statements.map fun st => (s, st)

namespace Compiler

open Profile (occurrences)

variable {c : Compiler} {table : ShapeTable} {shapes : List Profile.Shape}

def Declares (c : Compiler) (table : ShapeTable) (s : Profile.Shape)
    (r : Declaration × List Warning) : Prop :=
  c.declaredName s.id = .ok r.1.id ∧ r.1.label = s.label ∧
    ∃ rs, List.Forall₂ (fun st r => (c.constraint table s.id st).result = .ok r) s.statements rs ∧
      r.1.constraints = rs.map (·.1) ∧ r.2 = rs.flatMap (·.2)

theorem constraints_eq_collect (c : Compiler) (table : ShapeTable) (shape : String)
    (sts : List Profile.Statement) :
    (c.constraints table shape sts).result =
      collect (fun st => (c.constraint table shape st).result) sts := by
  induction sts with
  | nil => rfl
  | cons st rest ih => simp [constraints, collect, ih]; rfl

theorem declarations_eq_collect (c : Compiler) (table : ShapeTable)
    (pairs : List (Profile.Shape × Name)) :
    (c.declarations table pairs).result =
      collect (fun p => (c.declaration table p.2 p.1).result) pairs := by
  induction pairs with
  | nil => rfl
  | cons p rest ih => simp [declarations, collect, ih]; rfl

theorem result_declaration (c : Compiler) (table : ShapeTable) (id : Name) (s : Profile.Shape) :
    (c.declaration table id s).result =
      (collect (fun st => (c.constraint table s.id st).result) s.statements).map fun r =>
        ({ id, label := s.label, constraints := r.1 }, r.2) := by
  simp [declaration, constraints_eq_collect]
  rfl

theorem declaration_eq_ok_iff {id : Name} {s : Profile.Shape} {r : Declaration × List Warning} :
    (c.declaration table id s).result = .ok r ↔ r.1.id = id ∧ r.1.label = s.label ∧
      ∃ rs, List.Forall₂ (fun st r => (c.constraint table s.id st).result = .ok r) s.statements rs ∧
        r.1.constraints = rs.map (·.1) ∧ r.2 = rs.flatMap (·.2) := by
  simp only [result_declaration, map_eq_ok_iff, Prod.exists, collect_eq_ok_iff]
  refine ⟨?_, ?_⟩
  · rintro ⟨_, _, ⟨rs, hf, rfl, rfl⟩, rfl⟩
    exact ⟨rfl, rfl, rs, hf, rfl, rfl⟩
  · obtain ⟨⟨id, label, ks⟩, ws⟩ := r
    rintro ⟨rfl, rfl, rs, hf, rfl, rfl⟩
    exact ⟨_, _, ⟨rs, hf, rfl, rfl⟩, rfl⟩

theorem declaration_eq_ok_iff_declares {s : Profile.Shape} {entry : String × Name}
    (he : c.Entry s entry) {r : Declaration × List Warning} :
    (c.declaration table entry.2 s).result = .ok r ↔ c.Declares table s r := by
  rw [declaration_eq_ok_iff, Declares, he.declaredName, Except.ok.injEq, eq_comm]

theorem forall₂_zip_iff {entries : ShapeTable} (he : List.Forall₂ c.Entry shapes entries)
    {rs : List (Declaration × List Warning)} :
    List.Forall₂ (fun p r => (c.declaration table p.2 p.1).result = .ok r)
      (shapes.zip (entries.map (·.2))) rs ↔ List.Forall₂ (c.Declares table) shapes rs := by
  induction he generalizing rs with
  | nil => simp
  | @cons s entry shapes entries he _ ih =>
    simp only [List.map_cons, List.zip_cons_cons, List.forall₂_cons_left_iff,
      declaration_eq_ok_iff_declares he, ih]

theorem declarations_eq_ok_iff (h : c.nameShapes [] shapes = .ok table) {ds : List Declaration}
    {ws : List Warning} :
    (c.declarations table (shapes.zip (table.map (·.2)))).result = .ok (ds, ws) ↔
      ∃ rs, List.Forall₂ (c.Declares table) shapes rs ∧ ds = rs.map (·.1) ∧
        ws = rs.flatMap (·.2) := by
  simp only [declarations_eq_collect, collect_eq_ok_iff, forall₂_zip_iff (entries_of_nameShapes h)]

theorem datatype_declared {text : String} {n : Name} (h : c.datatype text = .ok n) :
    n.Declared c.prefixes := by
  obtain ⟨name, -, h⟩ := bind_eq_ok_iff.1 h
  split at h
  · obtain ⟨iri, -, rfl⟩ := map_eq_ok_iff.1 (mapError_eq_ok_iff.1 h)
    exact Name.declared_of_expand rfl
  · obtain ⟨rfl, hd⟩ := checkDeclared_eq_ok_iff.1 h
    exact hd

theorem names_nodup (h : c.nameShapes [] shapes = .ok table) : (table.map (·.2)).Nodup := by
  obtain ⟨he, hd, -⟩ := nameShapes_eq_ok_iff.1 h
  have hfst : table.map (·.1) = (table.map (·.2)).map fun n => n.identity c.prefixes := by
    rw [List.map_map]
    refine List.map_congr_left fun entry hm => ?_
    obtain ⟨s, -, hs⟩ := (mem_table_iff he).1 hm
    exact (Name.identity_of_expand hs.2).symm
  rw [hfst] at hd
  exact hd.of_map

theorem Declares.id_eq {s : Profile.Shape} {entry : String × Name} {r : Declaration × List Warning}
    (h : c.Declares table s r) (he : c.Entry s entry) : r.1.id = entry.2 := by
  simpa using h.1.symm.trans he.declaredName

theorem map_id_of_declares {entries : ShapeTable} {rs : List (Declaration × List Warning)}
    (he : List.Forall₂ c.Entry shapes entries) (hr : List.Forall₂ (c.Declares table) shapes rs) :
    (rs.map (·.1)).map (·.id) = entries.map (·.2) := by
  induction he generalizing rs with
  | nil => cases hr; rfl
  | cons he _ ih =>
    cases hr with
    | cons h hr => simp only [List.map_cons, h.id_eq he, ih hr]

/-- What a shape makes uses declared names only, and refers to names in the table. -/
theorem Declares.constraint {s : Profile.Shape} {r : Declaration × List Warning}
    (h : c.Declares table s r) {k : Constraint} (hk : k ∈ r.1.constraints) :
    ∃ st ∈ s.statements, ∃ ws, (c.constraint table s.id st).result = .ok (k, ws) := by
  obtain ⟨-, -, rs, hf, hks, -⟩ := h
  rw [hks] at hk
  obtain ⟨⟨k, ws⟩, hr, rfl⟩ := List.mem_map.1 hk
  obtain ⟨st, hst, h⟩ := exists_of_mem_right hf hr
  exact ⟨st, hst, ws, h⟩

theorem sound_of_declares (h : c.nameShapes [] shapes = .ok table)
    {rs : List (Declaration × List Warning)} (hr : List.Forall₂ (c.Declares table) shapes rs) :
    Schema.Sound ⟨c.prefixes, rs.map (·.1)⟩ := by
  have hdecl : ∀ d ∈ rs.map (·.1), ∃ s ∈ shapes, ∃ ws, c.Declares table s (d, ws) := by
    intro d hd
    obtain ⟨⟨d, ws⟩, hm, rfl⟩ := List.mem_map.1 hd
    obtain ⟨s, hs, h⟩ := exists_of_mem_right hr hm
    exact ⟨s, hs, ws, h⟩
  have hvalue : ∀ d ∈ rs.map (·.1), ∀ k ∈ d.constraints, k.predicate.Declared c.prefixes ∧
      ∃ s st ws, c.Gives table s st k.value ws := by
    intro d hd k hk
    obtain ⟨s, -, ws, h⟩ := hdecl d hd
    obtain ⟨st, -, ws, hst⟩ := h.constraint hk
    obtain ⟨p, v, hp, hv, rfl⟩ := constraint_eq_ok_iff.1 hst
    exact ⟨(declaredName_eq_ok_iff.1 hp).2, s.id, st, ws, hv⟩
  refine ⟨fun d hd => ?_, fun d hd k hk => (hvalue d hd k hk).1, fun d hd k hk n hn => ?_,
    fun d hd k hk n hn => ?_⟩
  · obtain ⟨s, -, ws, h⟩ := hdecl d hd
    exact (declaredName_eq_ok_iff.1 h.1).2
  · obtain ⟨-, s, st, ws, hv⟩ := hvalue d hd k hk
    rw [hn] at hv
    obtain ⟨text, hc⟩ := hv.datatype_eq
    exact datatype_declared hc
  · obtain ⟨-, s, st, ws, hv⟩ := hvalue d hd k hk
    rw [hn] at hv
    -- the table holds names of shapes only, and each of these is declared
    obtain ⟨iri, hl⟩ := hv.lookup_eq
    obtain ⟨t, ht, hread, -⟩ := (lookup_eq_some_iff h).1 hl
    obtain ⟨⟨d, ws⟩, hm, hd⟩ := exists_of_mem_left hr ht
    have hid : d.id = n := by simpa using (declaredName_eq_ok_iff.1 hd.1).1.symm.trans hread
    exact ⟨d, List.mem_map_of_mem hm, hid⟩

theorem addAll_of_declares (h : c.nameShapes [] shapes = .ok table)
    {rs : List (Declaration × List Warning)} (hr : List.Forall₂ (c.Declares table) shapes rs) :
    Schema.addAll ⟨c.prefixes, []⟩ (rs.map (·.1)) = ⟨c.prefixes, rs.map (·.1)⟩ := by
  have hid := map_id_of_declares (entries_of_nameShapes h) hr
  have hnodup : ((rs.map (·.1)).map (·.id)).Nodup := hid ▸ names_nodup h
  exact Schema.addAll_of_nodup hnodup

/-- A compilation is its two phases: naming the shapes, and declaring them. -/
theorem result_compile (c : Compiler) (shapes : List Profile.Shape) :
    (c.compile shapes).result = c.nameShapes [] shapes >>= fun table =>
      (c.declarations table (shapes.zip (table.map (·.2)))).result.map fun r =>
        (⟨c.prefixes, r.1⟩, r.2) := by
  simp only [compile, Traced.result_bind, Traced.liftM_eq_of, Traced.result_of]
  cases hn : c.nameShapes [] shapes with
  | error e => rfl
  | ok table =>
    simp only [bind, Except.bind]
    cases hd : (c.declarations table (shapes.zip (table.map (·.2)))).result with
    | error e => rfl
    | ok r =>
      obtain ⟨ds, ws⟩ := r
      obtain ⟨rs, hr, rfl, rfl⟩ := (declarations_eq_ok_iff hn).1 hd
      have hcheck := Schema.check_eq_ok_iff_sound.2 (sound_of_declares hn hr)
      simp only [addAll_of_declares hn hr, hcheck]
      rfl

theorem compile_eq_ok_iff {schema : Schema} {ws : List Warning} :
    (c.compile shapes).result = .ok (schema, ws) ↔
      ∃ table rs, c.nameShapes [] shapes = .ok table ∧ List.Forall₂ (c.Declares table) shapes rs ∧
        schema = ⟨c.prefixes, rs.map (·.1)⟩ ∧ ws = rs.flatMap (·.2) := by
  simp only [result_compile, bind_eq_ok_iff, map_eq_ok_iff, Prod.exists]
  refine ⟨?_, ?_⟩
  · rintro ⟨table, hn, ds, ws, hd, h⟩
    obtain ⟨rs, hr, rfl, rfl⟩ := (declarations_eq_ok_iff hn).1 hd
    cases h
    exact ⟨table, rs, hn, hr, rfl, rfl⟩
  · rintro ⟨table, rs, hn, hr, rfl, rfl⟩
    exact ⟨table, hn, _, _, (declarations_eq_ok_iff hn).2 ⟨rs, hr, rfl, rfl⟩, rfl⟩

theorem sound_of_compile {schema : Schema} {ws : List Warning}
    (h : (c.compile shapes).result = .ok (schema, ws)) :
    schema.prefixes = c.prefixes ∧ schema.Sound := by
  obtain ⟨table, rs, hn, hr, rfl, -⟩ := compile_eq_ok_iff.1 h
  exact ⟨rfl, sound_of_declares hn hr⟩

theorem exists_expand_of_compile {schema : Schema} {ws : List Warning}
    (h : (c.compile shapes).result = .ok (schema, ws)) {n : Name} (hn : n ∈ schema.names) :
    ∃ iri, n.expand c.prefixes = some iri := by
  obtain ⟨hprefixes, hsound⟩ := sound_of_compile h
  exact Name.exists_expand_iff.2 (hprefixes ▸ hsound.declared hn)

/-- After a compilation the declarations have the names of the shapes, and every constraint has the
value that its statement gives. -/
theorem gives_of_compile {schema : Schema} {ws : List Warning}
    (h : (c.compile shapes).result = .ok (schema, ws)) :
    ∃ table, c.nameShapes [] shapes = .ok table ∧
      List.Forall₂ (fun s d => Name.read s.id = .ok d.id ∧
        List.Forall₂ (fun st k => ∃ ws, c.Gives table s.id st k.value ws) s.statements d.constraints)
          shapes schema.declarations := by
  obtain ⟨table, rs, hn, hr, rfl, -⟩ := compile_eq_ok_iff.1 h
  refine ⟨table, hn, List.forall₂_map_right_iff.2 (hr.imp fun s d hd => ?_)⟩
  obtain ⟨hid, -, ks, hks, hc, -⟩ := hd
  refine ⟨(declaredName_eq_ok_iff.1 hid).1, ?_⟩
  rw [hc]
  refine List.forall₂_map_right_iff.2 (hks.imp fun st k hk => ?_)
  obtain ⟨p, v, -, hg, hkv⟩ := constraint_eq_ok_iff.1 hk
  rw [hkv]
  exact ⟨_, hg⟩

def fault? (c : Compiler) (table : ShapeTable) (o : Profile.Shape × Profile.Statement) :
    Option CompileError :=
  failure? (c.constraint table o.1.id o.2).result

theorem fault?_eq_some_iff {o : Profile.Shape × Profile.Statement} {e : CompileError} :
    c.fault? table o = some e ↔ c.NameFault o.2.property e ∨
      ∃ p, c.declaredName o.2.property = .ok p ∧ c.Refuses table o.1.id o.2 e := by
  rw [fault?, failure?_eq_some_iff, constraint_eq_error_iff]

theorem fault?_eq_none_iff {o : Profile.Shape × Profile.Statement} :
    c.fault? table o = none ↔
      ∃ k ws, (c.constraint table o.1.id o.2).result = .ok (k, ws) := by
  rw [fault?, failure?_eq_none_iff, Prod.exists]

theorem failure?_declaration (id : Name) (s : Profile.Shape) :
    failure? (c.declaration table id s).result =
      (s.statements.map fun st => (s, st)).findSome? (c.fault? table) := by
  rw [result_declaration, failure?_map, failure?_collect, List.findSome?_map]
  rfl

theorem failure?_declarations (c : Compiler) (table : ShapeTable)
    (pairs : List (Profile.Shape × Name)) :
    failure? (c.declarations table pairs).result =
      (occurrences (pairs.map (·.1))).findSome? (c.fault? table) := by
  rw [declarations_eq_collect, failure?_collect]
  induction pairs with
  | nil => rfl
  | cons p rest ih =>
    simp only [List.findSome?_cons, List.map_cons, occurrences, List.flatMap_cons,
      List.findSome?_append, failure?_declaration] at ih ⊢
    rw [ih]
    split <;> next h => rw [h]; rfl

theorem map_fst_named (h : c.nameShapes [] shapes = .ok table) :
    (shapes.zip (table.map (·.2))).map (·.1) = shapes := by
  have hlen : shapes.length = (table.map (·.2)).length := by
    simpa using (entries_of_nameShapes h).length_eq
  exact List.map_fst_zip (Nat.le_of_eq hlen)

theorem failure?_compile (h : c.nameShapes [] shapes = .ok table) :
    failure? (c.compile shapes).result = (occurrences shapes).findSome? (c.fault? table) := by
  have hpairs := failure?_declarations c table (shapes.zip (table.map (·.2)))
  rw [map_fst_named h] at hpairs
  rw [result_compile, h]
  exact (failure?_map _ _).trans hpairs

theorem compile_eq_error_iff {e : CompileError} :
    (c.compile shapes).result = .error e ↔ c.nameShapes [] shapes = .error e ∨
      ∃ table, c.nameShapes [] shapes = .ok table ∧
        (occurrences shapes).findSome? (c.fault? table) = some e := by
  cases h : c.nameShapes [] shapes with
  | error e' =>
    rw [result_compile, h]
    simp [bind, Except.bind]
  | ok table =>
    rw [← failure?_eq_some_iff, failure?_compile h]
    simp

end Compiler

end TabularShapes
