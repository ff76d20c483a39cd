import TabularShapes.Proofs.Compile.Leniency
import TabularShapes.Proofs.Compile.Offences
import TabularShapes.Proofs.Log.Warnings
import Mathlib.Data.List.TakeWhile

/-! What a compilation logs. It keeps its warnings twice: as events, which stay when it fails, and as a
list, which is lost then. Both are those of the statements that are compiled before the first that is
refused. -/

namespace TabularShapes

open Log (Event)

def Warning.event (w : Warning) : Event := .referenceDropped w.reference w.shape w.property

namespace Compiler

open Profile (occurrences)

variable {c : Compiler} {table : ShapeTable} {shapes : List Profile.Shape} {s : Profile.Shape}
  {st : Profile.Statement} {o : Profile.Shape × Profile.Statement}
  {os os' : List (Profile.Shape × Profile.Statement)} {e : CompileError} {ws : List Warning}

/-! ### Statements -/

/-- The events for the warnings that come with a value; none come with a failure. -/
def loggedWith {α : Type} : Except CompileError (α × List Warning) → List Event
  | .ok (_, ws) => ws.map Warning.event
  | .error _ => []

theorem loggedWith_bind {α β : Type} (x : Traced CompileError (α × List Warning)) (f : α → β) :
    loggedWith (x >>= fun r => pure (f r.1, r.2)).result = loggedWith x.result := by
  rw [Traced.result_bind]
  cases x.result <;> rfl

theorem warnings_value (c : Compiler) (table : ShapeTable) (shape : String)
    (st : Profile.Statement) :
    (c.value table shape st).warnings = loggedWith (c.value table shape st).result := by
  unfold value
  split
  · rfl
  · split
    · rfl
    · next text _ _ _ _ => cases c.datatype text <;> rfl
  · next text _ _ =>
    split
    · rfl
    · cases hn : c.declaredName text with
      | error e => rfl
      | ok target =>
        rw [Traced.liftM_eq_of, Traced.bind_of_ok (Traced.result_of _)]
        cases table.lookup (target.identity c.prefixes) with
        | some id => rfl
        | none => cases c.lenient <;> rfl
  · rfl

theorem warnings_constraint (c : Compiler) (table : ShapeTable) (shape : String)
    (st : Profile.Statement) :
    (c.constraint table shape st).warnings = loggedWith (c.constraint table shape st).result := by
  unfold constraint
  cases c.declaredName st.property with
  | error e => rfl
  | ok p =>
    rw [Traced.liftM_eq_of, Traced.bind_of_ok (Traced.result_of _)]
    exact (Traced.warnings_bind_of_quiet fun _ => .pure _).trans
      ((c.warnings_value table shape st).trans (loggedWith_bind _ (constraintOf st p)).symm)

theorem warnings_constraint_of_ok (hn : c.nameShapes [] shapes = .ok table)
    {r : Constraint × List Warning} (h : (c.constraint table s.id st).result = .ok r) :
    (c.constraint table s.id st).warnings =
      (c.warning? shapes (s, st)).toList.map Warning.event := by
  obtain ⟨p, v, -, hg, -⟩ := constraint_eq_ok_iff.1 h
  rw [warnings_constraint, h, loggedWith, hg.warnings_eq hn]

/-! ### Statements before the first that is refused -/

def warnedBefore (c : Compiler) (table : ShapeTable) (shapes : List Profile.Shape)
    (os : List (Profile.Shape × Profile.Statement)) : List Warning :=
  (os.takeWhile fun o => (c.fault? table o).isNone).filterMap (c.warning? shapes)

theorem warnedBefore_append (h : ∀ o ∈ os, c.fault? table o = none) :
    c.warnedBefore table shapes (os ++ os') =
      os.filterMap (c.warning? shapes) ++ c.warnedBefore table shapes os' := by
  have hpass : ∀ o ∈ os, (c.fault? table o).isNone = true := fun o ho => by simp [h o ho]
  rw [warnedBefore, List.takeWhile_append_of_pos hpass, List.filterMap_append]
  rfl

theorem warnedBefore_cons_of_fault (h : c.fault? table o = some e) :
    c.warnedBefore table shapes (o :: os) = [] := by
  simp [warnedBefore, h]

theorem warnedBefore_of_forall (h : ∀ o ∈ os, c.fault? table o = none) :
    c.warnedBefore table shapes os = os.filterMap (c.warning? shapes) := by
  have happend : c.warnedBefore table shapes (os ++ []) = os.filterMap (c.warning? shapes) ++ [] :=
    warnedBefore_append h
  rwa [List.append_nil, List.append_nil] at happend

theorem warnedBefore_append_of_fault (h : os.findSome? (c.fault? table) = some e) :
    c.warnedBefore table shapes (os ++ os') = c.warnedBefore table shapes os := by
  obtain ⟨before, o, after, rfl, ho, hbefore⟩ := List.findSome?_eq_some_iff.1 h
  rw [List.append_assoc, warnedBefore_append hbefore, warnedBefore_append hbefore,
    List.cons_append, warnedBefore_cons_of_fault ho, warnedBefore_cons_of_fault ho]

/-! ### Shapes -/

theorem warnings_constraints (hn : c.nameShapes [] shapes = .ok table)
    (sts : List Profile.Statement) : (c.constraints table s.id sts).warnings =
      (c.warnedBefore table shapes (sts.map fun st => (s, st))).map Warning.event := by
  induction sts with
  | nil => rfl
  | cons st rest ih =>
    rw [constraints, List.map_cons]
    cases hr : (c.constraint table s.id st).result with
    | error e =>
      have hfault : c.fault? table (s, st) = some e := failure?_eq_some_iff.2 hr
      rw [Traced.warnings_bind_of_error hr, warnings_constraint, hr,
        warnedBefore_cons_of_fault hfault]
      rfl
    | ok r =>
      have hpass : ∀ o ∈ [(s, st)], c.fault? table o = none := by
        rw [List.forall_mem_singleton]
        exact failure?_eq_none_iff.2 ⟨r, hr⟩
      rw [Traced.warnings_bind_of_ok hr, warnings_constraint_of_ok hn hr,
        Traced.warnings_bind_of_quiet fun _ => Traced.Quiet.pure _, ih, ← List.singleton_append,
        warnedBefore_append hpass, List.map_append]
      rfl

theorem warnings_declaration (hn : c.nameShapes [] shapes = .ok table) (id : Name)
    (s : Profile.Shape) : (c.declaration table id s).warnings =
      (c.warnedBefore table shapes (s.statements.map fun st => (s, st))).map Warning.event := by
  rw [← warnings_constraints hn]
  exact Traced.warnings_bind_of_quiet fun _ => Traced.Quiet.pure _

theorem warnings_declarations (hn : c.nameShapes [] shapes = .ok table)
    (pairs : List (Profile.Shape × Name)) : (c.declarations table pairs).warnings =
      (c.warnedBefore table shapes (occurrences (pairs.map (·.1)))).map Warning.event := by
  induction pairs with
  | nil => rfl
  | cons p rest ih =>
    obtain ⟨s, id⟩ := p
    have hsplit : occurrences (((s, id) :: rest).map (·.1)) =
        s.statements.map (fun st => (s, st)) ++ occurrences (rest.map (·.1)) := List.flatMap_cons ..
    have hfail : failure? (c.declaration table id s).result =
        (s.statements.map fun st => (s, st)).findSome? (c.fault? table) := failure?_declaration id s
    rw [declarations, hsplit]
    cases hr : (c.declaration table id s).result with
    | error e =>
      rw [hr, failure?_error] at hfail
      rw [Traced.warnings_bind_of_error hr, warnings_declaration hn,
        warnedBefore_append_of_fault hfail.symm]
    | ok r =>
      rw [hr, failure?_ok] at hfail
      have hpass := List.findSome?_eq_none_iff.1 hfail.symm
      rw [Traced.warnings_bind_of_ok hr, warnings_declaration hn, warnedBefore_of_forall hpass,
        Traced.warnings_bind_of_quiet fun _ => Traced.Quiet.pure _, ih, warnedBefore_append hpass,
        List.map_append]

/-! ### Compilations -/

theorem warnings_compile_of_unnamed (hn : c.nameShapes [] shapes = .error e) :
    (c.compile shapes).warnings = [] := by
  rw [compile, Traced.liftM_eq_of, hn]
  rfl

theorem warnings_compile (hn : c.nameShapes [] shapes = .ok table) : (c.compile shapes).warnings =
    (c.warnedBefore table shapes (occurrences shapes)).map Warning.event := by
  have hdeclarations := warnings_declarations hn (shapes.zip (table.map (·.2)))
  rw [map_fst_named hn] at hdeclarations
  rw [← hdeclarations, compile, Traced.liftM_eq_of, hn,
    Traced.warnings_bind_of_ok (Traced.result_of _), Traced.warnings_of, List.nil_append]
  -- after the declarations only the size of the schema is reported
  refine Traced.warnings_bind_of_quiet fun _ => ?_
  refine .bind (.of _) fun _ => ?_
  exact .bind (.report rfl) fun _ => .pure _

theorem warnings_of_compile {schema : Schema} (h : (c.compile shapes).result = .ok (schema, ws)) :
    (c.compile shapes).warnings = ws.map Warning.event := by
  obtain ⟨table, -, hn, -⟩ := compile_eq_ok_iff.1 h
  have hfail := failure?_compile hn
  rw [h, failure?_ok] at hfail
  rw [warnings_compile hn, warnedBefore_of_forall (List.findSome?_eq_none_iff.1 hfail.symm),
    warnings_eq h]

/-- A strict compiler refuses the statements that a lenient one warns about. -/
theorem warning?_of_strict (hc : c.lenient = false) (hn : c.nameShapes [] shapes = .ok table)
    (h : c.fault? table o = none) : c.warning? shapes o = none := by
  obtain ⟨k, ws, hk⟩ := fault?_eq_none_iff.1 h
  obtain ⟨p, v, -, hg, -⟩ := constraint_eq_ok_iff.1 hk
  rw [← Option.toList_eq_nil_iff, ← hg.warnings_eq hn]
  cases hg with
  | dropped _ _ _ _ _ hl => rw [hc] at hl; cases hl
  | _ => rfl

theorem warnings_of_strict (hc : c.lenient = false) (shapes : List Profile.Shape) :
    (c.compile shapes).warnings = [] := by
  cases hn : c.nameShapes [] shapes with
  | error e => exact warnings_compile_of_unnamed hn
  | ok table =>
    rw [warnings_compile hn, warnedBefore, List.map_eq_nil_iff, List.filterMap_eq_nil_iff]
    intro o ho
    have hpass := List.mem_takeWhile_imp ho
    exact warning?_of_strict hc hn (Option.isNone_iff_eq_none.1 hpass)

/-! ### Places -/

structure FailsAt (c : Compiler) (shapes : List Profile.Shape) (before : List Place) (p : Place)
    (e : CompileError) : Prop where
  places : ∃ after, places shapes = before ++ p :: after
  before : ∀ q ∈ before, ∀ e', ¬ c.Offends shapes q e'
  offends : c.Offends shapes p e

/-- The warning about a reference to no shape, at the place where references are looked up. -/
def dropped? (c : Compiler) (shapes : List Profile.Shape) : Place → Option Warning
  | .reference s st => c.warning? shapes (s, st)
  | _ => none

theorem filterMap_dropped?_namePlaces (c : Compiler) (shapes earlier rest : List Profile.Shape) :
    (namePlaces earlier rest).filterMap (c.dropped? shapes) = [] := by
  induction rest generalizing earlier with
  | nil => rfl
  | cons s rest ih => exact ih (earlier ++ [s])

theorem filterMap_dropped?_statementPlaces (os : List (Profile.Shape × Profile.Statement)) :
    (os.flatMap statementPlaces).filterMap (c.dropped? shapes) =
      os.filterMap (c.warning? shapes) := by
  induction os with
  | nil => rfl
  | cons o os ih =>
    have hplaces : (statementPlaces o).filterMap (c.dropped? shapes) =
        (c.warning? shapes o).toList := by
      simp only [statementPlaces, valuePlaces, List.filterMap_cons, dropped?, List.filterMap_nil]
      cases c.warning? shapes o <;> rfl
    rw [List.flatMap_cons, List.filterMap_append, hplaces, ih, List.filterMap_cons]
    cases c.warning? shapes o <;> rfl

/-- The reference is the last place of its statement. -/
theorem filterMap_dropped?_of_prefix {before after : List Place} {p : Place}
    (h : statementPlaces o = before ++ p :: after) :
    before.filterMap (c.dropped? shapes) = [] := by
  rw [List.filterMap_eq_nil_iff]
  intro q hq
  have hinit : before <+: (statementPlaces o).dropLast := by
    rw [h, List.dropLast_append_of_ne_nil (List.cons_ne_nil p after)]
    exact List.prefix_append _ _
  have hmem := hinit.subset hq
  simp only [statementPlaces, valuePlaces, List.dropLast_cons_cons, List.dropLast_singleton,
    List.mem_cons, List.not_mem_nil, or_false] at hmem
  obtain rfl | rfl | rfl | rfl := hmem <;> rfl

theorem nameShapes_nil_eq_error_iff_first : c.nameShapes [] shapes = .error e ↔
    First (c.Offends shapes) (namePlaces [] shapes) e :=
  nameShapes_eq_error_iff_first (by simp)

theorem not_offends_of_named (hn : c.nameShapes [] shapes = .ok table) :
    ∀ q ∈ namePlaces [] shapes, ∀ e, ¬ c.Offends shapes q e := by
  intro q hq e hoffends
  obtain ⟨e', hfirst⟩ := exists_first_iff.2 ⟨q, hq, e, hoffends⟩
  rw [← nameShapes_nil_eq_error_iff_first, hn] at hfirst
  cases hfirst

theorem not_offends_of_compiled (hn : c.nameShapes [] shapes = .ok table)
    (h : ∀ o ∈ os, c.fault? table o = none) :
    ∀ q ∈ os.flatMap statementPlaces, ∀ e, ¬ c.Offends shapes q e := by
  intro q hq e hoffends
  obtain ⟨o, ho, hqo⟩ := List.mem_flatMap.1 hq
  obtain ⟨e', hfirst⟩ := exists_first_iff.2 ⟨q, hqo, e, hoffends⟩
  rw [← fault?_eq_some_iff_first hn, h o ho] at hfirst
  cases hfirst

/-- A compilation that fails over the name of a shape has looked up no reference. -/
theorem failsAt_of_unnamed (hn : c.nameShapes [] shapes = .error e) :
    ∃ before p, c.FailsAt shapes before p e ∧ before.filterMap (c.dropped? shapes) = [] := by
  obtain ⟨before, p, after, hplaces, hbefore, hp⟩ := nameShapes_nil_eq_error_iff_first.1 hn
  have hall := c.filterMap_dropped?_namePlaces shapes [] shapes
  rw [hplaces, List.filterMap_append, List.append_eq_nil_iff] at hall
  refine ⟨before, p, ⟨⟨after ++ (occurrences shapes).flatMap statementPlaces, ?_⟩, hbefore, hp⟩,
    hall.1⟩
  rw [places, hplaces, List.append_assoc, List.cons_append]

/-- One that fails at a statement has looked up the references of the statements before. -/
theorem failsAt_of_stopsAt (h : c.StopsAt shapes os o e) :
    ∃ before p, c.FailsAt shapes before p e ∧
      before.filterMap (c.dropped? shapes) = os.filterMap (c.warning? shapes) := by
  obtain ⟨table, later, hn, hsplit, hos, ho⟩ := h
  obtain ⟨front, p, back, hplaces, hfront, hp⟩ := (fault?_eq_some_iff_first hn o).1 ho
  refine ⟨namePlaces [] shapes ++ (os.flatMap statementPlaces ++ front), p,
    ⟨⟨back ++ later.flatMap statementPlaces, ?_⟩, ?_, hp⟩, ?_⟩
  · simp only [places, hsplit, List.flatMap_append, List.flatMap_cons, hplaces, List.append_assoc,
      List.cons_append]
  · simp only [List.forall_mem_append]
    exact ⟨not_offends_of_named hn, not_offends_of_compiled hn hos, hfront⟩
  · rw [List.filterMap_append, filterMap_dropped?_namePlaces, List.filterMap_append,
      filterMap_dropped?_statementPlaces, filterMap_dropped?_of_prefix hplaces, List.append_nil,
      List.nil_append]

theorem warnings_of_stopsAt (h : c.StopsAt shapes os o e) :
    (c.compile shapes).warnings = (os.filterMap (c.warning? shapes)).map Warning.event := by
  obtain ⟨table, later, hn, hsplit, hos, ho⟩ := h
  rw [warnings_compile hn, hsplit, warnedBefore_append hos, warnedBefore_cons_of_fault ho,
    List.append_nil]

theorem warnings_of_error (h : (c.compile shapes).result = .error e) :
    ∃ before p, c.FailsAt shapes before p e ∧
      (c.compile shapes).warnings =
        (before.filterMap (c.dropped? shapes)).map Warning.event := by
  obtain hn | ⟨os, o, hstops⟩ := stopsAt_of_error h
  · obtain ⟨before, p, hfails, hdropped⟩ := failsAt_of_unnamed hn
    exact ⟨before, p, hfails, by rw [warnings_compile_of_unnamed hn, hdropped, List.map_nil]⟩
  · obtain ⟨before, p, hfails, hdropped⟩ := failsAt_of_stopsAt hstops
    exact ⟨before, p, hfails, by rw [warnings_of_stopsAt hstops, hdropped]⟩

end Compiler

end TabularShapes
