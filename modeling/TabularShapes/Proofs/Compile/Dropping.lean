import TabularShapes.Proofs.Compile.Result

/-! The warnings of a compilation. There is one for each statement whose reference names no shape, in
the order of the shapes and of their statements. -/

namespace TabularShapes.Compiler

open Profile (occurrences)

variable {c : Compiler} {table : ShapeTable} {shapes : List Profile.Shape} {r iri : String}

/-- Whether one of the shapes stands for the same IRI as the reference. -/
def defines (c : Compiler) (shapes : List Profile.Shape) (r : String) : Bool :=
  shapes.any fun t => c.iri? t.id == c.iri? r

def warning? (c : Compiler) (shapes : List Profile.Shape)
    (o : Profile.Shape × Profile.Statement) : Option Warning :=
  o.2.valueShape.bind fun r =>
    if c.defines shapes r then none else some ⟨r, o.1.id, o.2.property⟩

/-- What a constraint makes of the reference of its statement: a requirement on the kind of node if it
names no shape, and a reference if it does. -/
def Settles (c : Compiler) (shapes : List Profile.Shape) (st : Profile.Statement)
    (k : Constraint) : Prop :=
  ∀ r, st.valueShape = some r → (k.value = valueOfKind st.nodeKind ↔ c.defines shapes r = false) ∧
    ((∃ n, k.value = .reference n) ↔ c.defines shapes r = true)

theorem warning?_eq_some_iff {o : Profile.Shape × Profile.Statement} {w : Warning} :
    c.warning? shapes o = some w ↔ ∃ r, o.2.valueShape = some r ∧ c.defines shapes r = false ∧
      w = ⟨r, o.1.id, o.2.property⟩ := by
  unfold warning?
  cases o.2.valueShape with
  | none => simp
  | some r =>
    simp only [Option.bind_some, Option.some.injEq, exists_eq_left']
    cases c.defines shapes r with
    | true => simp
    | false => simpa using eq_comm

theorem defines_iff : c.defines shapes r = true ↔ ∃ t ∈ shapes, c.iri? t.id = c.iri? r := by
  simp [defines]

theorem lookup_eq_none_iff_defines (h : c.nameShapes [] shapes = .ok table)
    (hi : c.iri? r = some iri) : table.lookup iri = none ↔ c.defines shapes r = false := by
  rw [lookup_eq_none_iff h, ← Bool.not_eq_true, defines_iff, hi]
  simp

theorem defines_of_lookup (h : c.nameShapes [] shapes = .ok table) (hi : c.iri? r = some iri)
    {id : Name} (hl : table.lookup iri = some id) : c.defines shapes r = true := by
  rw [← Bool.not_eq_false, ← lookup_eq_none_iff_defines h hi, hl]
  simp

theorem Gives.warnings_eq (h : c.nameShapes [] shapes = .ok table) {s : Profile.Shape}
    {st : Profile.Statement} {v : Value} {ws : List Warning} (hg : c.Gives table s.id st v ws) :
    ws = (c.warning? shapes (s, st)).toList := by
  cases hg with
  | datatype _ hv => simp [warning?, hv]
  | kind _ hv => simp [warning?, hv]
  | reference _ hv _ hi hl => simp [warning?, hv, defines_of_lookup h hi hl]
  | dropped _ hv _ hi hl => simp [warning?, hv, (lookup_eq_none_iff_defines h hi).1 hl]

theorem Gives.dropped_iff (h : c.nameShapes [] shapes = .ok table) {shape : String}
    {st : Profile.Statement} {v : Value} {ws : List Warning} (hg : c.Gives table shape st v ws)
    (hr : st.valueShape = some r) :
    (v = valueOfKind st.nodeKind ↔ c.defines shapes r = false) ∧
      ((∃ n, v = .reference n) ↔ c.defines shapes r = true) := by
  cases hg with
  | datatype _ hv => simp [hv] at hr
  | kind _ hv => simp [hv] at hr
  | reference _ hv _ hi hl =>
    obtain rfl := Option.some.inj (hv.symm.trans hr)
    simp [defines_of_lookup h hi hl, (valueOfKind_ne_reference _ _).symm]
  | dropped _ hv _ hi hl =>
    obtain rfl := Option.some.inj (hv.symm.trans hr)
    simp [(lookup_eq_none_iff_defines h hi).1 hl, valueOfKind_ne_reference]

theorem Declares.warnings_eq (h : c.nameShapes [] shapes = .ok table) {s : Profile.Shape}
    {r : Declaration × List Warning} (hd : c.Declares table s r) :
    r.2 = s.statements.flatMap fun st => (c.warning? shapes (s, st)).toList := by
  obtain ⟨-, -, rs, hf, -, hws⟩ := hd
  rw [hws]
  refine flatMap_of_forall₂ (hf.imp fun st r hr => ?_)
  obtain ⟨p, v, -, hg, -⟩ := constraint_eq_ok_iff.1 hr
  exact hg.warnings_eq h

/-- The warnings of a compilation are those of its statements in order. -/
theorem warnings_eq {schema : Schema} {ws : List Warning}
    (h : (c.compile shapes).result = .ok (schema, ws)) :
    ws = (occurrences shapes).filterMap (c.warning? shapes) := by
  obtain ⟨table, rs, hn, hr, -, rfl⟩ := compile_eq_ok_iff.1 h
  have hws := flatMap_of_forall₂ (hr.imp fun s r hd => hd.warnings_eq hn)
  rw [hws, List.filterMap_eq_flatMap_toList, occurrences, List.flatMap_assoc]
  simp only [List.flatMap_map]

theorem references_of_compile {schema : Schema} {ws : List Warning}
    (h : (c.compile shapes).result = .ok (schema, ws)) :
    List.Forall₂ (fun s d => List.Forall₂ (c.Settles shapes) s.statements d.constraints)
      shapes schema.declarations := by
  obtain ⟨table, hn, hds⟩ := gives_of_compile h
  refine hds.imp fun s d hd => hd.2.imp fun st k hk r hv => ?_
  obtain ⟨ws, hg⟩ := hk
  exact hg.dropped_iff hn hv

end TabularShapes.Compiler
