import TabularShapes.Proofs.Compile.Result

/-! The texts of a profile that are read as names. A compilation that fails because of an invalid name
fails with one of them, and says that a name is empty of the empty text only. -/

namespace TabularShapes

open Profile (occurrences)

theorem Name.eq_empty_of_read {text : String} (h : Name.read text = .error .empty) : text = "" := by
  rw [Name.read] at h
  split at h
  · assumption
  · obtain ⟨e, -, he⟩ := mapError_eq_error_iff.1 h
    cases he

def Profile.Shape.texts (s : Profile.Shape) : List String :=
  s.id :: s.statements.flatMap fun st =>
    st.property :: (st.datatype.toList ++ st.valueShape.toList)

namespace Compiler

variable {c : Compiler} {table : ShapeTable} {shapes : List Profile.Shape} {t text shape : String}
  {st : Profile.Statement} {cause : NameTextError}

/-- An error that finds fault with the text as a name. -/
def Blames (e : CompileError) (text : String) : Prop :=
  ∀ name cause, e = .invalidName name cause → name = text ∧ (cause = .empty → text = "")

theorem NameFault.blames {e : CompileError} (h : c.NameFault text e) : Blames e text := by
  intro name cause he
  cases h with
  | invalid hr =>
    cases he
    refine ⟨rfl, ?_⟩
    rintro rfl
    exact Name.eq_empty_of_read hr
  | undeclared => cases he

theorem blames_of_datatype {e : CompileError} (h : c.datatype text = .error e) : Blames e text := by
  intro name cause he
  rcases bind_eq_error_iff.1 h with h | ⟨n, -, h⟩
  · obtain ⟨cause, hr, rfl⟩ := mapError_eq_error_iff.1 h
    exact NameFault.blames (c := c) (.invalid hr) name _ he
  · split at h
    · obtain ⟨fault, -, rfl⟩ := mapError_eq_error_iff.1 h
      cases he
      exact ⟨rfl, by simp⟩
    · rw [checkDeclared] at h
      split at h
      · cases h
        cases he
      · cases h

theorem Refuses.blames {e : CompileError} (h : c.Refuses table shape st e) :
    ∃ text ∈ st.property :: (st.datatype.toList ++ st.valueShape.toList), Blames e text := by
  cases h with
  | datatype hd _ _ hn => exact ⟨_, by simp [hd], blames_of_datatype hn⟩
  | reference _ hv _ hf => exact ⟨_, by simp [hv], hf.blames⟩
  | conflict | datatypeKind | referenceKind | dangling =>
    exact ⟨_, List.mem_cons_self, fun _ _ he => by cases he⟩

theorem fault?_blames {o : Profile.Shape × Profile.Statement} {e : CompileError}
    (h : c.fault? table o = some e) :
    ∃ text ∈ o.2.property :: (o.2.datatype.toList ++ o.2.valueShape.toList), Blames e text := by
  rcases fault?_eq_some_iff.1 h with hf | ⟨p, -, hr⟩
  · exact ⟨_, List.mem_cons_self, hf.blames⟩
  · exact hr.blames

theorem IdFault.blames {seen : List String} {s : Profile.Shape} {e : CompileError}
    (h : c.IdFault seen s e) : Blames e s.id := by
  cases h with
  | name h => exact h.blames
  | repeated => exact fun _ _ he => by cases he

/-- A compilation that fails finds fault with one of the names of its shapes, or with none. -/
theorem compile_blames {e : CompileError} (h : (c.compile shapes).result = .error e) :
    ∃ s ∈ shapes, ∃ text ∈ s.texts, Blames e text := by
  rcases compile_eq_error_iff.1 h with hn | ⟨table, -, hf⟩
  · obtain ⟨before, s, after, rfl, -, hs⟩ := nameShapes_fails_iff.1 hn
    exact ⟨s, by simp, s.id, List.mem_cons_self, hs.blames⟩
  · obtain ⟨o, ho, hfault⟩ := List.exists_of_findSome?_eq_some hf
    simp only [occurrences, List.mem_flatMap, List.mem_map] at ho
    obtain ⟨s, hs, st, hst, rfl⟩ := ho
    obtain ⟨text, htext, hblames⟩ := fault?_blames hfault
    exact ⟨s, hs, text, List.mem_cons_of_mem _ (List.mem_flatMap.2 ⟨st, hst, htext⟩), hblames⟩

theorem compile_ne_emptyName (h : ∀ s ∈ shapes, "" ∉ s.texts) (name : String) :
    (c.compile shapes).result ≠ .error (.invalidName name .empty) := by
  intro hfail
  obtain ⟨s, hs, text, htext, hblames⟩ := compile_blames hfail
  exact h s hs ((hblames name _ rfl).2 rfl ▸ htext)

end Compiler

end TabularShapes
