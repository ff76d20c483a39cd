import TabularShapes.Proofs.Compile.Dropping

/-! Lenient and strict compilation. They take the same steps until a reference names no shape: there
the strict one ends, and the lenient one goes on with a warning. -/

namespace TabularShapes

/-- The error that stands for a warning where references are not dropped. -/
def Warning.error (w : Warning) : CompileError := .danglingReference w.reference w.shape w.property

namespace Compiler

open Profile (occurrences)

def strictly (c : Compiler) : Compiler := { c with lenient := false }

def leniently (c : Compiler) : Compiler := { c with lenient := true }

variable {c : Compiler} {table : ShapeTable} {shapes : List Profile.Shape} {shape text : String}
  {st : Profile.Statement} {v : Value} {ws : List Warning} {e : CompileError}
  {o : Profile.Shape × Profile.Statement}

/-- Where a compilation ends that fails at a statement: it has compiled the statements `before`, and
fails at the next one. -/
def StopsAt (c : Compiler) (shapes : List Profile.Shape)
    (before : List (Profile.Shape × Profile.Statement)) (o : Profile.Shape × Profile.Statement)
    (e : CompileError) : Prop :=
  ∃ table after, c.nameShapes [] shapes = .ok table ∧ occurrences shapes = before ++ o :: after ∧
    (∀ d ∈ before, c.fault? table d = none) ∧ c.fault? table o = some e

theorem nameShapes_strictly : c.strictly.nameShapes [] shapes = c.nameShapes [] shapes :=
  nameShapes_of_prefixes rfl

theorem nameShapes_leniently : c.leniently.nameShapes [] shapes = c.nameShapes [] shapes :=
  nameShapes_of_prefixes rfl

/-- What the lenient compiler refuses, the strict one refuses for the same reason. -/
theorem Refuses.strictly (h : c.leniently.Refuses table shape st e) :
    c.strictly.Refuses table shape st e := by
  cases h with
  | conflict hd hv => exact .conflict hd hv
  | datatypeKind hd hv hk hl => exact .datatypeKind hd hv hk hl
  | datatype hd hv hk hn => exact .datatype hd hv hk hn
  | referenceKind hd hv hk => exact .referenceKind hd hv hk
  | reference hd hv hk he => exact .reference hd hv hk (he.of_prefixes rfl)
  | dangling _ _ _ _ _ hc => cases hc

theorem Gives.leniently (h : c.strictly.Gives table shape st v ws) :
    c.leniently.Gives table shape st v ws ∧ ws = [] := by
  cases h with
  | datatype hd hv hk hn => exact ⟨.datatype hd hv hk hn, rfl⟩
  | reference hd hv hk hi hl => exact ⟨.reference hd hv hk hi hl, rfl⟩
  | dropped _ _ _ _ _ hc => cases hc
  | kind hd hv => exact ⟨.kind hd hv, rfl⟩

/-- Where the lenient compiler gives a value, the strict one gives it too, unless it refuses the
reference that the lenient one drops. -/
theorem Gives.strictly (h : c.leniently.Gives table shape st v ws) :
    ws = [] ∧ c.strictly.Gives table shape st v [] ∨
      ∃ w, ws = [w] ∧ c.strictly.Refuses table shape st w.error := by
  cases h with
  | datatype hd hv hk hn => exact .inl ⟨rfl, .datatype hd hv hk hn⟩
  | reference hd hv hk hi hl => exact .inl ⟨rfl, .reference hd hv hk hi hl⟩
  | dropped hd hv hk hi hl _ => exact .inr ⟨_, rfl, .dangling hd hv hk hi hl rfl⟩
  | kind hd hv => exact .inl ⟨rfl, .kind hd hv⟩

/-- One step of the strict compiler: it fails as the lenient one does, and also where that one warns. -/
theorem fault?_strictly (hn : c.nameShapes [] shapes = .ok table) :
    c.strictly.fault? table o =
      (c.leniently.fault? table o).or ((c.warning? shapes o).map Warning.error) := by
  cases h : c.leniently.fault? table o with
  | some e =>
    rw [Option.some_or, fault?_eq_some_iff]
    rcases fault?_eq_some_iff.1 h with hp | ⟨p, hp, hr⟩
    · exact .inl (hp.of_prefixes rfl)
    · exact .inr ⟨p, hp, hr.strictly⟩
  | none =>
    -- the lenient step warns exactly where the strict one refuses
    obtain ⟨k, ws, hk⟩ := fault?_eq_none_iff.1 h
    obtain ⟨p, v, hp, hg, rfl⟩ := constraint_eq_ok_iff.1 hk
    have hws : ws = (c.warning? shapes o).toList :=
      hg.warnings_eq (nameShapes_leniently.trans hn)
    rw [Option.none_or]
    rcases hg.strictly with ⟨rfl, hs⟩ | ⟨w, rfl, hr⟩
    · rw [Option.toList_eq_nil_iff.1 hws.symm, Option.map_none, fault?_eq_none_iff]
      exact ⟨_, _, constraint_eq_ok_iff.2 ⟨p, v, hp, hs, rfl⟩⟩
    · rw [Option.toList_eq_singleton_iff.1 hws.symm, Option.map_some, fault?_eq_some_iff]
      exact .inr ⟨p, hp, hr⟩

theorem failure?_strictly (hn : c.nameShapes [] shapes = .ok table) :
    failure? (c.strictly.compile shapes).result = (occurrences shapes).findSome? fun o =>
      (c.leniently.fault? table o).or ((c.warning? shapes o).map Warning.error) := by
  rw [failure?_compile (nameShapes_strictly.trans hn)]
  congr 1
  funext o
  exact fault?_strictly hn

theorem failure?_strictly_of_ok {schema : Schema}
    (h : (c.leniently.compile shapes).result = .ok (schema, ws)) :
    failure? (c.strictly.compile shapes).result = ws.head?.map Warning.error := by
  have hws : ws = (occurrences shapes).filterMap (c.leniently.warning? shapes) := warnings_eq h
  obtain ⟨table, rs, hn, -⟩ := compile_eq_ok_iff.1 h
  have hnone : ∀ o ∈ occurrences shapes, c.leniently.fault? table o = none := by
    have hfail := failure?_compile hn
    rw [h] at hfail
    exact List.findSome?_eq_none_iff.1 hfail.symm
  rw [failure?_strictly (nameShapes_leniently.symm.trans hn), findSome?_or_of_none hnone, hws,
    List.head?_filterMap, List.map_findSome?]
  rfl

theorem stopsAt_of_error (h : (c.compile shapes).result = .error e) :
    c.nameShapes [] shapes = .error e ∨ ∃ before o, c.StopsAt shapes before o e := by
  refine (compile_eq_error_iff.1 h).imp id ?_
  rintro ⟨table, hn, he⟩
  obtain ⟨before, o, after, hsplit, ho, hbefore⟩ := List.findSome?_eq_some_iff.1 he
  exact ⟨before, o, table, after, hn, hsplit, hbefore, ho⟩

theorem StopsAt.result_eq {before : List (Profile.Shape × Profile.Statement)}
    (h : c.StopsAt shapes before o e) : (c.compile shapes).result = .error e := by
  obtain ⟨table, after, hn, hsplit, hbefore, ho⟩ := h
  refine compile_eq_error_iff.2 (.inr ⟨table, hn, ?_⟩)
  exact List.findSome?_eq_some_iff.2 ⟨before, o, after, hsplit, ho, hbefore⟩

/-- Where the lenient compilation fails at a statement, the strict one fails there or at the first
reference before it that was dropped. -/
theorem StopsAt.strictly {before : List (Profile.Shape × Profile.Statement)}
    (h : c.leniently.StopsAt shapes before o e) :
    c.strictly.StopsAt shapes before o e ∨ ∃ earlier d between r,
      before = earlier ++ d :: between ∧ d.2.valueShape = some r ∧ c.defines shapes r = false ∧
        c.strictly.StopsAt shapes earlier d (.danglingReference r d.1.id d.2.property) := by
  obtain ⟨table, after, hn, hsplit, hbefore, ho⟩ := h
  have hn := nameShapes_leniently.symm.trans hn
  have hn' := nameShapes_strictly.trans hn
  have hstep : ∀ d ∈ before, c.strictly.fault? table d =
      (c.warning? shapes d).map Warning.error := by
    intro d hd
    rw [fault?_strictly hn, hbefore d hd, Option.none_or]
  cases hw : before.findSome? (c.warning? shapes) with
  | none =>
    have hnone := List.findSome?_eq_none_iff.1 hw
    refine .inl ⟨table, after, hn', hsplit, fun d hd => ?_, ?_⟩
    · rw [hstep d hd, hnone d hd, Option.map_none]
    · rw [fault?_strictly hn, ho, Option.some_or]
  | some w =>
    obtain ⟨earlier, d, between, rfl, hd, hnone⟩ := List.findSome?_eq_some_iff.1 hw
    obtain ⟨r, hr, hdef, rfl⟩ := warning?_eq_some_iff.1 hd
    refine .inr ⟨earlier, d, between, r, rfl, hr, hdef, table, between ++ o :: after, hn', ?_, ?_, ?_⟩
    · rw [hsplit, List.append_assoc, List.cons_append]
    · intro x hx
      rw [hstep x (List.mem_append_left _ hx), hnone x hx, Option.map_none]
    · rw [hstep d (List.mem_append_right _ List.mem_cons_self), hd]
      rfl

theorem Declares.leniently {s : Profile.Shape} {r : Declaration × List Warning}
    (h : c.strictly.Declares table s r) : c.leniently.Declares table s r ∧ r.2 = [] := by
  obtain ⟨hid, hlabel, rs, hf, hks, hws⟩ := h
  have hstep : ∀ st r, (c.strictly.constraint table s.id st).result = .ok r →
      (c.leniently.constraint table s.id st).result = .ok r ∧ r.2 = [] := by
    intro st r hr
    obtain ⟨p, v, hp, hg, hk⟩ := constraint_eq_ok_iff.1 hr
    obtain ⟨hg, hnil⟩ := hg.leniently
    exact ⟨constraint_eq_ok_iff.2 ⟨p, v, hp, hg, hk⟩, hnil⟩
  refine ⟨⟨hid, hlabel, rs, hf.imp fun st r hr => (hstep st r hr).1, hks, hws⟩, ?_⟩
  rw [hws, List.flatMap_eq_nil_iff]
  intro r hr
  obtain ⟨st, -, hst⟩ := exists_of_mem_right hf hr
  exact (hstep st r hst).2

theorem compile_leniently_of_strictly {schema : Schema}
    (h : (c.strictly.compile shapes).result = .ok (schema, ws)) :
    ws = [] ∧ (c.leniently.compile shapes).result = .ok (schema, []) := by
  obtain ⟨table, rs, hn, hr, rfl, rfl⟩ := compile_eq_ok_iff.1 h
  have hnil : rs.flatMap (·.2) = [] := by
    rw [List.flatMap_eq_nil_iff]
    intro r hm
    obtain ⟨s, -, hs⟩ := exists_of_mem_right hr hm
    exact hs.leniently.2
  have hn' := nameShapes_leniently.trans (nameShapes_strictly.symm.trans hn)
  refine ⟨hnil, compile_eq_ok_iff.2 ⟨table, rs, hn', ?_, rfl, hnil.symm⟩⟩
  exact hr.imp fun s r hs => hs.leniently.1

theorem compile_strictly_of_leniently {schema : Schema}
    (h : (c.leniently.compile shapes).result = .ok (schema, [])) :
    (c.strictly.compile shapes).result = .ok (schema, []) := by
  -- the strict run succeeds, and the lenient one then ends with its schema
  obtain ⟨⟨schema', ws⟩, hs⟩ := failure?_eq_none_iff.1 (failure?_strictly_of_ok h)
  obtain ⟨rfl, hl⟩ := compile_leniently_of_strictly hs
  rw [hs, ← hl, h]

/-- Lenient compilation refines strict compilation. Both make the same schema where nothing is
dropped. Where something is, the strict compiler fails with the first warning, and where the lenient
one fails, the strict one fails with the same error or with a reference that was dropped before. -/
theorem leniently_refines_strictly (c : Compiler) (shapes : List Profile.Shape) :
    (∀ schema ws, (c.strictly.compile shapes).result = .ok (schema, ws) →
      ws = [] ∧ (c.leniently.compile shapes).result = .ok (schema, [])) ∧
    (∀ schema, (c.leniently.compile shapes).result = .ok (schema, []) →
      (c.strictly.compile shapes).result = .ok (schema, [])) ∧
    (∀ schema w ws, (c.leniently.compile shapes).result = .ok (schema, w :: ws) →
      (c.strictly.compile shapes).result =
        .error (.danglingReference w.reference w.shape w.property)) ∧
    (∀ e, (c.leniently.compile shapes).result = .error e →
      (c.strictly.compile shapes).result = .error e ∨
        ∃ earlier d between o r, c.leniently.StopsAt shapes (earlier ++ d :: between) o e ∧
          d.2.valueShape = some r ∧ c.defines shapes r = false ∧
          c.strictly.StopsAt shapes earlier d (.danglingReference r d.1.id d.2.property) ∧
          (c.strictly.compile shapes).result =
            .error (.danglingReference r d.1.id d.2.property)) ∧
    ∀ schema ws, (c.leniently.compile shapes).result = .ok (schema, ws) →
      ws = (occurrences shapes).filterMap (c.warning? shapes) ∧
      List.Forall₂ (fun s d => List.Forall₂ (c.Settles shapes) s.statements d.constraints)
        shapes schema.declarations := by
  refine ⟨fun schema ws => compile_leniently_of_strictly,
    fun schema => compile_strictly_of_leniently, ?_, ?_, ?_⟩
  · intro schema w ws h
    exact failure?_eq_some_iff.1 (failure?_strictly_of_ok h)
  · intro e h
    rcases stopsAt_of_error h with h | ⟨before, o, h⟩
    · left
      rw [nameShapes_leniently, ← nameShapes_strictly] at h
      exact compile_eq_error_iff.2 (.inl h)
    · rcases h.strictly with hs | ⟨earlier, d, between, r, rfl, hr, hd, hs⟩
      · exact .inl hs.result_eq
      · exact .inr ⟨earlier, d, between, o, r, h, hr, hd, hs, hs.result_eq⟩
  · intro schema ws h
    exact ⟨warnings_eq (c := c.leniently) h, references_of_compile (c := c.leniently) h⟩

def unfinished : Profile.Shape :=
  { id := "A", statements := [{ property := "p", valueShape := some ":A" },
      { property := "q", valueShape := some "B" },
      { property := "r", valueShape := some "C", nodeKind := some .iri }] }

theorem leniently_refines_strictly_of_unfinished :
    (∃ schema, (default.leniently.compile [unfinished]).result =
      .ok (schema, [⟨"B", "A", "q"⟩, ⟨"C", "A", "r"⟩])) ∧
    (default.strictly.compile [unfinished]).result = .error (.danglingReference "B" "A" "q") := by
  have hok : (default.leniently.compile [unfinished]).result.toOption.map
      (fun r : Schema × List Warning => r.2) = some [⟨"B", "A", "q"⟩, ⟨"C", "A", "r"⟩] := by
    decide +kernel
  cases h : (default.leniently.compile [unfinished]).result with
  | error e => simp [h, Except.toOption] at hok
  | ok r =>
    obtain ⟨schema, ws⟩ := r
    obtain rfl : ws = _ := by simpa [h, Except.toOption] using hok
    exact ⟨⟨schema, rfl⟩, (leniently_refines_strictly default [unfinished]).2.2.1 _ _ _ h⟩

end Compiler

end TabularShapes
