import TabularShapes.Proofs.Compile.Texts
import TabularShapes.Proofs.Profile.Cleaning
import TabularShapes.Proofs.Session.Conversion

/-! What a session holds is clean: what the reader trims and drops stays so in the shapes of every
profile that is held, so that no name is empty when a profile is compiled. -/

namespace TabularShapes

theorem Profile.Shape.Clean.empty_notMem_texts {s : Profile.Shape} (h : s.Clean) :
    "" ∉ s.texts := by
  have htrimmed : ∀ t ∈ s.texts, IsTrimmed t := by
    intro t ht
    rcases List.mem_cons.1 ht with rfl | ht
    · exact h.id
    · obtain ⟨st, hst, ht⟩ := List.mem_flatMap.1 ht
      have hclean := h.statements st hst
      rcases List.mem_cons.1 ht with rfl | ht
      · exact hclean.property
      · refine hclean.optional t ?_
        rcases List.mem_append.1 ht with ht | ht
        · simp [Option.mem_toList.1 ht]
        · simp [Option.mem_toList.1 ht]
  exact fun hmem => (htrimmed "" hmem).2 rfl

namespace Session

open Table (Dialect Source)

variable {s : Session} {shapes : List Profile.Shape}

theorem clean_of_yields {x : Deed} (h : x.Yields shapes) :
    (shapes.map (·.id)).Nodup ∧ ∀ t ∈ shapes, t.Clean := by
  cases x with
  | read d source =>
    obtain ⟨rows, hread, hgroup⟩ := h
    exact ⟨Profile.nodup_groupRows hgroup,
      Profile.clean_of_groupRows (Profile.clean_of_read hread) hgroup⟩
  | compile | reset => cases h

theorem clean_of_run {ops : List Operation} (h : (run ops).profile = some shapes) :
    (shapes.map (·.id)).Nodup ∧ ∀ t ∈ shapes, t.Clean := by
  obtain ⟨since, x, -, hx⟩ := ((reflects_run ops).profile shapes).1 h
  exact clean_of_yields hx

/-- A profile of clean shapes is not refused for an empty name. -/
theorem compile_ne_emptyName (h : ∀ shapes, s.profile = some shapes → ∀ t ∈ shapes, t.Clean)
    (name : String) : s.compile.2.result ≠ .error (.compile (.invalidName name .empty)) := by
  intro hfail
  cases hp : s.profile with
  | none =>
    rw [compile_of_none hp] at hfail
    cases hfail
  | some shapes =>
    rw [result_compile_of_profile hp, map_eq_error_iff, mapError_eq_error_iff] at hfail
    obtain ⟨e, he, heq⟩ := hfail
    cases heq
    exact Compiler.compile_ne_emptyName (fun t ht => (h shapes hp t ht).empty_notMem_texts) name he

theorem convert_ne_emptyName (s : Session) (source : Source) (layout : Layout) (name : String) :
    (s.convert source layout).2.result ≠ .error (.compile (.invalidName name .empty)) := by
  intro hfail
  rw [result_convert, bind_eq_error_iff] at hfail
  rcases hfail with hread | ⟨⟨⟩, hread, hfail⟩
  · rw [result_read, map_eq_error_iff, result_shapesOf, bind_eq_error_iff] at hread
    rcases hread with hread | ⟨rows, -, hread⟩
    · obtain ⟨e, -, he⟩ := mapError_eq_error_iff.1 hread
      cases he
    · obtain ⟨e, -, he⟩ := mapError_eq_error_iff.1 hread
      cases he
  · rw [result_read] at hread
    obtain ⟨shapes, hshapes, -⟩ := map_eq_ok_iff.1 hread
    rcases bind_eq_error_iff.1 hfail with hcompile | ⟨⟨⟩, hcompile, hwrite⟩
    · refine compile_ne_emptyName ?_ name hcompile
      rw [read_of_ok hshapes]
      intro shapes' hshapes'
      cases hshapes'
      exact (clean_of_yields (shapesOf_eq_ok_iff.1 hshapes)).2
    · obtain ⟨out, hout⟩ := write_of_compile_ok hcompile layout
      rw [hout] at hwrite
      cases hwrite

/-- Every row that is read is clean. After every run of operations the shapes that are held are clean
and of different names, each with a statement and with the line of the first one, and neither a
compilation nor a conversion fails because a name is empty. -/
theorem run_clean :
    (∀ (d : Dialect) (source : Source) rows, (Profile.read d source).result = .ok rows →
      ∀ row ∈ rows, row.Clean) ∧
    ∀ ops : List Operation,
      (∀ shapes, (run ops).profile = some shapes →
        (shapes.map (·.id)).Nodup ∧ ∀ s ∈ shapes, s.Clean) ∧
      (∀ name, (run ops).compile.2.result ≠ .error (.compile (.invalidName name .empty))) ∧
      ∀ source layout name,
        ((run ops).convert source layout).2.result ≠ .error (.compile (.invalidName name .empty)) := by
  refine ⟨fun d source rows => Profile.clean_of_read, ?_⟩
  intro ops
  refine ⟨fun shapes => clean_of_run, ?_, ?_⟩
  · intro name
    exact compile_ne_emptyName (fun shapes hp => (clean_of_run hp).2) name
  · intro source layout name
    exact convert_ne_emptyName (run ops) source layout name

def blanks : String :=
  "propertyId,shapeId,shapeLabel,valueShape\n p , A ,\t, \nq,\u00a0,x,\n,,,\nr,B,,A\ns, A,  y z ,B"

theorem run_clean_of_blanks :
    (∃ rows, (Profile.readText {} blanks).result = .ok rows ∧ rows.length = 4 ∧
      ∀ row ∈ rows, row.Clean) ∧
    (∃ shapes, (run [.readText blanks]).profile = some shapes ∧
      shapes.map (fun s => (s.id, s.label, s.line)) = [("A", some "y z", 2), ("B", none, 5)] ∧
      (shapes.map (·.id)).Nodup ∧ ∀ s ∈ shapes, s.Clean) ∧
    ∀ name, (run [.readText blanks]).compile.2.result ≠
      .error (.compile (.invalidName name .empty)) := by
  obtain ⟨hrows, hruns⟩ := run_clean
  obtain ⟨hshapes, hcompile, -⟩ := hruns [.readText blanks]
  have hlength : (Profile.readText {} blanks).result.toOption.map List.length = some 4 := by
    decide +kernel
  have hheld : (run [.readText blanks]).profile.map
      (fun shapes => shapes.map fun s => (s.id, s.label, s.line)) =
        some [("A", some "y z", 2), ("B", none, 5)] := by decide +kernel
  refine ⟨?_, ?_, hcompile⟩
  · cases h : (Profile.readText {} blanks).result with
    | error e => simp [h, Except.toOption] at hlength
    | ok rows =>
      exact ⟨rows, rfl, by simpa [h, Except.toOption] using hlength, hrows _ _ rows h⟩
  · obtain ⟨shapes, hp, heq⟩ := Option.map_eq_some_iff.1 hheld
    exact ⟨shapes, hp, heq, hshapes shapes hp⟩

end Session

end TabularShapes
