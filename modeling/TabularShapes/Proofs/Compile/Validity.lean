import TabularShapes.Proofs.Compile.Result

/-! Compilation makes valid schemas only: whatever the resolver answers, and also where references are
dropped, the check at its end passes. -/

namespace TabularShapes.Compiler

variable {c : Compiler} {table : ShapeTable} {shapes : List Profile.Shape} {e : CompileError}

theorem NameFault.ne_invalidSchema {text : String} (h : c.NameFault text e) (s : SchemaError) :
    e ≠ .invalidSchema s := by
  rcases h with _ | _ <;> simp

theorem datatype_ne_invalidSchema {text : String} (h : c.datatype text = .error e)
    (s : SchemaError) : e ≠ .invalidSchema s := by
  rintro rfl
  rcases bind_eq_error_iff.1 h with h | ⟨name, -, h⟩
  · obtain ⟨cause, -, hc⟩ := mapError_eq_error_iff.1 h
    cases hc
  · split at h
    · obtain ⟨cause, -, hc⟩ := mapError_eq_error_iff.1 h
      cases hc
    · rw [checkDeclared] at h
      split at h <;> cases h

theorem Refuses.ne_invalidSchema {shape : String} {st : Profile.Statement}
    (h : c.Refuses table shape st e) (s : SchemaError) : e ≠ .invalidSchema s := by
  cases h with
  | datatype _ _ _ hn => exact datatype_ne_invalidSchema hn s
  | reference _ _ _ he => exact he.ne_invalidSchema s
  | conflict => simp
  | datatypeKind => simp
  | referenceKind => simp
  | dangling => simp

theorem IdFault.ne_invalidSchema {seen : List String} {s : Profile.Shape} (h : c.IdFault seen s e)
    (err : SchemaError) : e ≠ .invalidSchema err := by
  cases h with
  | name h => exact h.ne_invalidSchema err
  | repeated => simp

theorem compile_ne_invalidSchema (s : SchemaError) :
    (c.compile shapes).result ≠ .error (.invalidSchema s) := by
  intro h
  rcases compile_eq_error_iff.1 h with h | ⟨table, -, h⟩
  · obtain ⟨before, t, after, -, -, ht⟩ := nameShapes_fails_iff.1 h
    exact ht.ne_invalidSchema s rfl
  · obtain ⟨o, -, ho⟩ := List.exists_of_findSome?_eq_some h
    rcases fault?_eq_some_iff.1 ho with ho | ⟨p, -, ho⟩
    · exact ho.ne_invalidSchema s rfl
    · exact ho.ne_invalidSchema s rfl

/-- The schema that is put together passes the check, so that no compilation fails there, and every
schema that is returned is sound under the namespaces of the compiler. -/
theorem compile_valid (c : Compiler) (shapes : List Profile.Shape) :
    (∀ table ds ws, c.nameShapes [] shapes = .ok table →
      (c.declarations table (shapes.zip (table.map (·.2)))).result = .ok (ds, ws) →
        (Schema.addAll ⟨c.prefixes, []⟩ ds).check = .ok () ∧
          (c.compile shapes).result = .ok (Schema.addAll ⟨c.prefixes, []⟩ ds, ws)) ∧
    (∀ e, (c.compile shapes).result ≠ .error (.invalidSchema e)) ∧
    ∀ schema ws, (c.compile shapes).result = .ok (schema, ws) →
      schema.check = .ok () ∧ schema.prefixes = c.prefixes ∧ schema.Sound := by
  refine ⟨fun table ds ws hn hd => ?_, compile_ne_invalidSchema, fun schema ws h => ?_⟩
  · obtain ⟨rs, hr, rfl, rfl⟩ := (declarations_eq_ok_iff hn).1 hd
    rw [addAll_of_declares hn hr]
    exact ⟨Schema.check_eq_ok_iff_sound.2 (sound_of_declares hn hr),
      compile_eq_ok_iff.2 ⟨table, rs, hn, hr, rfl, rfl⟩⟩
  · obtain ⟨table, rs, hn, hr, rfl, rfl⟩ := compile_eq_ok_iff.1 h
    have hsound := sound_of_declares hn hr
    exact ⟨Schema.check_eq_ok_iff_sound.2 hsound, rfl, hsound⟩

def expanding : Compiler := { default with resolver := defaultPrefixes.resolver, lenient := true }

/-- Two shapes, with a reference to the second, one to an undefined shape, and a datatype. -/
def loose : List Profile.Shape :=
  [{ id := "A", statements := [{ property := "p", valueShape := some "<http://example.org/B>" },
      { property := "q", valueShape := some "C" }] },
    { id := ":B", statements := [{ property := "r", datatype := some "xsd:date" }] }]

theorem compile_valid_of_loose : ∃ table ds ws, expanding.nameShapes [] loose = .ok table ∧
    (expanding.declarations table (loose.zip (table.map (·.2)))).result = .ok (ds, ws) ∧
    (Schema.addAll ⟨expanding.prefixes, []⟩ ds).check = .ok () ∧
    (Schema.addAll ⟨expanding.prefixes, []⟩ ds).Sound := by
  obtain ⟨hcheck, -, hsound⟩ := compile_valid expanding loose
  obtain ⟨⟨schema, ws⟩, hc⟩ := failure?_eq_none_iff.1
    (show failure? (expanding.compile loose).result = none by decide +kernel)
  obtain ⟨table, rs, hn, hr, -⟩ := compile_eq_ok_iff.1 hc
  have hd := (declarations_eq_ok_iff hn).2 ⟨rs, hr, rfl, rfl⟩
  obtain ⟨hvalid, hok⟩ := hcheck table _ _ hn hd
  exact ⟨table, _, _, hn, hd, hvalid, (hsound _ _ hok).2.2⟩

end TabularShapes.Compiler
