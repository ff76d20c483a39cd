import TabularShapes.Proofs.Compile.Result

/-! The identity of shapes is the IRI that their names stand for. Shapes can be named exactly if these
IRIs are pairwise different, and a reference goes to the one shape that stands for the same IRI,
wherever it is declared and however both are written. -/

namespace TabularShapes.Compiler

variable {c : Compiler} {table : ShapeTable} {shapes : List Profile.Shape}

/-- What a reference has become: the name that the shape of the same IRI declares, if there is one,
and no reference else. -/
structure Refers (c : Compiler) (shapes : List Profile.Shape) (schema : Schema) (r : String)
    (v : Value) : Prop where
  known : ∃ iri, c.iri? r = some iri
  reference_iff : ∀ n, v = .reference n ↔ ∃ (k : ℕ) (t : Profile.Shape) (d : Declaration),
    shapes[k]? = some t ∧ schema.declarations[k]? = some d ∧ c.iri? t.id = c.iri? r ∧ d.id = n
  unique : ∀ (k k' : ℕ) (t t' : Profile.Shape), shapes[k]? = some t → shapes[k']? = some t' →
    c.iri? t.id = c.iri? r → c.iri? t'.id = c.iri? r → k = k'

theorem Nameable.iris_eq (h : c.Nameable shapes) :
    shapes.map (fun s => c.iri? s.id) = (c.iris shapes).map some := by
  have hall : ∀ s ∈ shapes, ∃ iri, c.iri? s.id = some iri :=
    fun s hs => exists_iri?_iff.2 (h.named s hs)
  clear h
  induction shapes with
  | nil => rfl
  | cons s rest ih =>
    obtain ⟨iri, hi⟩ := hall s List.mem_cons_self
    have hrest := ih fun t ht => hall t (List.mem_cons_of_mem _ ht)
    simp [iris, hi] at hrest ⊢
    exact hrest

theorem Nameable.position_unique (h : c.Nameable shapes) {k k' : Nat} {t t' : Profile.Shape}
    (hk : shapes[k]? = some t) (hk' : shapes[k']? = some t')
    (hi : c.iri? t.id = c.iri? t'.id) : k = k' := by
  -- `iris` leaves out names without an IRI, so positions are counted in the list of options
  have hnodup : (shapes.map fun s => c.iri? s.id).Nodup := by
    rw [h.iris_eq]
    exact h.distinct.map fun _ _ => Option.some.inj
  have hlt : k < (shapes.map fun s => c.iri? s.id).length := by
    rw [List.length_map]
    exact (List.getElem?_eq_some_iff.1 hk).1
  apply (List.getElem?_inj hlt hnodup).1
  rw [List.getElem?_map, List.getElem?_map, hk, hk', Option.map_some, Option.map_some, hi]

theorem Gives.reference_iff {shape r iri : String} {st : Profile.Statement} {v : Value}
    {ws : List Warning} (h : c.Gives table shape st v ws) (hv : st.valueShape = some r)
    (hi : c.iri? r = some iri) (n : Name) : v = .reference n ↔ table.lookup iri = some n := by
  cases h with
  | datatype _ hv' => simp [hv'] at hv
  | kind _ hv' => simp [hv'] at hv
  | reference _ hv' _ hi' hl =>
    obtain rfl := Option.some.inj (hv'.symm.trans hv)
    obtain rfl := Option.some.inj (hi'.symm.trans hi)
    simp [hl]
  | dropped _ hv' _ hi' hl =>
    obtain rfl := Option.some.inj (hv'.symm.trans hv)
    obtain rfl := Option.some.inj (hi'.symm.trans hi)
    simp [hl, valueOfKind_ne_reference]

theorem Gives.known {shape r : String} {st : Profile.Statement} {v : Value} {ws : List Warning}
    (h : c.Gives table shape st v ws) (hv : st.valueShape = some r) :
    ∃ iri, c.iri? r = some iri := by
  cases h with
  | datatype _ hv' => simp [hv'] at hv
  | kind _ hv' => simp [hv'] at hv
  | reference _ hv' _ hi' => exact ⟨_, Option.some.inj (hv'.symm.trans hv) ▸ hi'⟩
  | dropped _ hv' _ hi' => exact ⟨_, Option.some.inj (hv'.symm.trans hv) ▸ hi'⟩

/-- The table answers with the name that stands in the schema at the place of the shape. -/
theorem lookup_eq_some_iff_declared (h : c.nameShapes [] shapes = .ok table)
    {ds : List Declaration} (hds : List.Forall₂ (fun s d => Name.read s.id = .ok d.id) shapes ds)
    {iri : String} {n : Name} :
    table.lookup iri = some n ↔ ∃ (k : ℕ) (t : Profile.Shape) (d : Declaration),
      shapes[k]? = some t ∧ ds[k]? = some d ∧ c.iri? t.id = some iri ∧ d.id = n := by
  rw [lookup_eq_some_iff h]
  refine ⟨?_, ?_⟩
  · rintro ⟨t, ht, hread, hx⟩
    obtain ⟨k, hk⟩ := List.mem_iff_getElem?.1 ht
    obtain ⟨d, hd, hdt⟩ := exists_getElem?_left hds hk
    refine ⟨k, t, d, hk, hd, iri?_eq_some_iff.2 ⟨n, hread, hx⟩, ?_⟩
    exact Except.ok.inj (hdt.symm.trans hread)
  · rintro ⟨k, t, d, hk, hd, hi, rfl⟩
    obtain ⟨t', ht', hdt⟩ := exists_getElem?_right hds hd
    obtain rfl := Option.some.inj (ht'.symm.trans hk)
    exact ⟨t', List.mem_of_getElem? hk, hdt, iri?_of_read hdt ▸ hi⟩

theorem refers_of_gives (h : c.nameShapes [] shapes = .ok table) {schema : Schema}
    (hds : List.Forall₂ (fun s d => Name.read s.id = .ok d.id) shapes schema.declarations)
    {shape r : String} {st : Profile.Statement} {v : Value} {ws : List Warning}
    (hg : c.Gives table shape st v ws) (hv : st.valueShape = some r) :
    c.Refers shapes schema r v := by
  obtain ⟨iri, hi⟩ := hg.known hv
  have hname := exists_nameShapes_iff.1 ⟨table, h⟩
  refine ⟨⟨iri, hi⟩, fun n => ?_, fun k k' t t' hk hk' ht ht' => ?_⟩
  · rw [hg.reference_iff hv hi, lookup_eq_some_iff_declared h hds, hi]
  · exact hname.position_unique hk hk' (ht.trans ht'.symm)

/-- Naming succeeds exactly for shapes with names of their own and is ended by the first other one.
After a compilation each declaration has the name that its shape declares, and each reference is to
the shape of the same IRI. -/
theorem compile_identity (c : Compiler) (shapes : List Profile.Shape) :
    ((∃ table, c.nameShapes [] shapes = .ok table) ↔ c.Nameable shapes) ∧
    (∀ e, c.nameShapes [] shapes = .error e ↔ ∃ before s after, shapes = before ++ s :: after ∧
      c.Nameable before ∧ c.IdFault (c.iris before) s e) ∧
    (∀ e, c.nameShapes [] shapes = .error e → (c.compile shapes).result = .error e) ∧
    ∀ schema ws, (c.compile shapes).result = .ok (schema, ws) →
      List.Forall₂ (fun s d => Name.read s.id = .ok d.id ∧
        List.Forall₂ (fun st k => ∀ r, st.valueShape = some r → c.Refers shapes schema r k.value)
          s.statements d.constraints) shapes schema.declarations := by
  refine ⟨exists_nameShapes_iff, fun e => nameShapes_fails_iff,
    fun e h => compile_eq_error_iff.2 (.inl h), fun schema ws h => ?_⟩
  obtain ⟨table, hn, hds⟩ := gives_of_compile h
  have hids := hds.imp fun s d hd => hd.1
  refine hds.imp fun s d hd => ⟨hd.1, hd.2.imp fun st k hk r hv => ?_⟩
  obtain ⟨ws, hg⟩ := hk
  exact refers_of_gives hn hids hg hv

def circle : List Profile.Shape :=
  [{ id := "A", statements := [{ property := "p", valueShape := some "<http://example.org/B>" },
      { property := "q", valueShape := some ":A" }] },
    { id := ":B", statements := [{ property := "p", valueShape := some "http://example.org/A" }] }]

theorem compile_identity_of_circle :
    default.Nameable circle ∧ ∃ schema, (default.compile circle).result = .ok (schema, []) ∧
      List.Forall₂ (fun s d => Name.read s.id = .ok d.id ∧ List.Forall₂
        (fun st k => ∀ r, st.valueShape = some r → default.Refers circle schema r k.value)
          s.statements d.constraints) circle schema.declarations := by
  obtain ⟨hnames, -, -, hrefers⟩ := compile_identity default circle
  obtain ⟨table, ht⟩ := failure?_eq_none_iff.1
    (show failure? (default.nameShapes [] circle) = none by decide +kernel)
  have hok : ((default.compile circle).result.toOption.map (·.2)) = some [] := by decide +kernel
  cases h : (default.compile circle).result with
  | error e => simp [h, Except.toOption] at hok
  | ok r =>
    obtain ⟨schema, ws⟩ := r
    obtain rfl : ws = [] := by simpa [h, Except.toOption] using hok
    exact ⟨hnames.1 ⟨table, ht⟩, schema, rfl, hrefers schema [] h⟩

end TabularShapes.Compiler
