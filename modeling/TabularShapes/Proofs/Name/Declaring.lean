import TabularShapes.Proofs.Compile.Naming
import TabularShapes.Proofs.Name.Writing

/-! Maps of namespaces after any declarations, judged or not. Each abbreviation stands once, where it
was first declared, and stands for the IRI that was last declared for it. A declaration that is
refused changes nothing, and says that the abbreviation is bad before it looks at the IRI. -/

namespace TabularShapes.PrefixMap

/-- A declaration that is made to a map: one that is judged, or one that is taken as it is. -/
inductive Change
  | insert (space iri : String)
  | declare (space iri : String)

/-- The pair that the change declares, if it is accepted. -/
def Change.accepted? : Change → Option (String × String)
  | .insert space iri =>
    if isPrefixName space.toList && isIri iri.toList then some (space, iri) else none
  | .declare space iri => some (space, iri)

def after (m : PrefixMap) : Change → PrefixMap
  | .insert space iri => (m.insert space iri).1
  | .declare space iri => m.declare space iri

def run (changes : List Change) : PrefixMap := changes.foldl after ∅

/-- What is declared for an abbreviation after the pairs: the IRI of the last pair with it. -/
def lastOf (ds : List (String × String)) (space : String) : Option String :=
  (ds.findRev? (·.1 == space)).map (·.2)

/-- What holds of a map, and of its answers, after the pairs were declared. -/
structure Maps (m : PrefixMap) (ds : List (String × String)) : Prop where
  distinct : (m.declarations.map (·.1)).Nodup
  /-- Abbreviations stand in the order in which they were first declared. -/
  order : m.declarations.map (·.1) = (ds.map (·.1)).eraseDups
  stands : ∀ p ∈ m.declarations, m.get? p.1 = some p.2
  last : ∀ space, m.get? space = lastOf ds space
  expands : ∀ space ending, m.expand space ending = (lastOf ds space).map (· ++ ending)
  resolves : ∀ space ending, m.resolver space ending = (lastOf ds space).map (· ++ ending)

/-- What a judged declaration leaves and answers. The abbreviation is judged first. -/
inductive Inserts (m : PrefixMap) (space iri : String) : PrefixMap × Except NameError Unit → Prop
  | accepted (hs : isPrefixName space.toList = true) (hi : isIri iri.toList = true) :
      Inserts m space iri (m.declare space iri, .ok ())
  | badName (hs : isPrefixName space.toList = false) :
      Inserts m space iri (m, .error (.invalidPrefix space))
  | badIri {fault : Iri.Fault} (hs : isPrefixName space.toList = true)
      (hi : Iri.check iri.toList = .error fault) :
      Inserts m space iri (m, .error (.invalidIri iri fault))

variable {m : PrefixMap} {space iri : String} {changes : List Change} {c : Change}

/-! ### One declaration -/

theorem inserts_insert (m : PrefixMap) (space iri : String) :
    m.Inserts space iri (m.insert space iri) := by
  cases hs : isPrefixName space.toList with
  | false =>
    have hspace : PrefixName.ofText space = .error (.invalidPrefix space) := by
      simp [PrefixName.ofText, hs]
    rw [insert_eq, hspace]
    exact .badName hs
  | true =>
    have hspace : PrefixName.ofText space = .ok ⟨space, hs⟩ := PrefixName.ofText_eq_ok_iff.2 rfl
    cases hi : Iri.check iri.toList with
    | ok u =>
      have hiri := isIri_of_check hi
      rw [insert_eq_ok_iff.2 ⟨hs, hiri, rfl⟩]
      exact .accepted hs hiri
    | error fault =>
      have hiri : Iri.ofText iri = .error (.invalidIri iri fault) := by
        unfold Iri.ofText
        split
        · next h =>
          rw [hi] at h
          cases h
        · next h =>
          rw [hi] at h
          cases h
          rfl
      rw [insert_eq, hspace, hiri]
      exact .badIri hs hi

theorem insert_of_error {e : NameError} (h : (m.insert space iri).2 = .error e) :
    m.insert space iri = (m, .error e) := by
  have hinserts := inserts_insert m space iri
  generalize m.insert space iri = answer at h hinserts ⊢
  cases hinserts <;> cases h <;> rfl

theorem after_of_accepted {p : String × String} (h : c.accepted? = some p) :
    m.after c = m.declare p.1 p.2 := by
  cases c with
  | declare space iri =>
    cases h
    rfl
  | insert space iri =>
    rw [Change.accepted?, Option.ite_none_right_eq_some, Bool.and_eq_true] at h
    obtain ⟨⟨hs, hi⟩, h⟩ := h
    cases h
    rw [after, insert_eq_ok_iff.2 ⟨hs, hi, rfl⟩]

theorem after_of_refused (h : c.accepted? = none) : m.after c = m := by
  cases c with
  | declare space iri => cases h
  | insert space iri =>
    have hinserts := inserts_insert m space iri
    rw [after]
    generalize m.insert space iri = answer at hinserts ⊢
    cases hinserts with
    | accepted hs hi => simp [Change.accepted?, hs, hi] at h
    | badName => rfl
    | badIri => rfl

/-- The abbreviations change only where a new one is declared. -/
theorem map_fst_declare (m : PrefixMap) (space iri : String) :
    (m.declare space iri).declarations.map (·.1) =
      if space ∈ m.declarations.map (·.1) then m.declarations.map (·.1)
      else m.declarations.map (·.1) ++ [space] := by
  obtain ⟨pairs⟩ := m
  show (put space iri pairs).map (·.1) = _
  induction pairs with
  | nil => simp [put]
  | cons p rest ih =>
    obtain ⟨s, i⟩ := p
    by_cases h : s = space
    · simp [put, h]
    · rw [put, if_neg h, List.map_cons, ih]
      by_cases hmem : space ∈ rest.map (·.1)
      · simp [hmem]
      · simp [hmem, Ne.symm h]

/-! ### Runs -/

theorem run_concat (changes : List Change) (c : Change) :
    run (changes ++ [c]) = (run changes).after c :=
  List.foldl_concat ..

theorem map_fst_run (changes : List Change) : (run changes).declarations.map (·.1) =
    ((changes.filterMap Change.accepted?).map (·.1)).eraseDups := by
  induction changes using List.reverseRecOn with
  | nil => rfl
  | append_singleton changes c ih =>
    rw [run_concat, List.filterMap_append]
    cases hc : c.accepted? with
    | none => simpa [after_of_refused hc, hc] using ih
    | some p =>
      rw [after_of_accepted hc, map_fst_declare, ih, List.filterMap_cons_some hc,
        List.filterMap_nil, List.map_append, List.map_singleton, eraseDups_concat]
      simp only [List.mem_eraseDups]

theorem nodup_run (changes : List Change) : ((run changes).declarations.map (·.1)).Nodup := by
  rw [map_fst_run]
  exact nodup_eraseDups _

theorem lastOf_concat (ds : List (String × String)) (p : String × String) (space : String) :
    lastOf (ds ++ [p]) space = if space = p.1 then some p.2 else lastOf ds space := by
  rw [lastOf, findRev?_concat]
  by_cases h : space = p.1
  · simp [h]
  · simp [h, Ne.symm h, lastOf]

theorem get?_run (changes : List Change) (space : String) :
    (run changes).get? space = lastOf (changes.filterMap Change.accepted?) space := by
  induction changes using List.reverseRecOn with
  | nil => rfl
  | append_singleton changes c ih =>
    rw [run_concat, List.filterMap_append]
    cases hc : c.accepted? with
    | none => simpa [after_of_refused hc, hc] using ih
    | some p =>
      rw [after_of_accepted hc, get?_declare, ih, List.filterMap_cons_some hc, List.filterMap_nil,
        lastOf_concat]

theorem get?_fst_run {p : String × String} (hp : p ∈ (run changes).declarations) :
    (run changes).get? p.1 = some p.2 :=
  (lookup_eq_some_iff_mem (nodup_run changes)).2 hp

theorem maps_run (changes : List Change) :
    (run changes).Maps (changes.filterMap Change.accepted?) where
  distinct := nodup_run changes
  order := map_fst_run changes
  stands _ := get?_fst_run
  last := get?_run changes
  expands space ending := by rw [expand, get?_run]
  resolves space ending := by rw [resolver, expand, get?_run]

/-- A map all of whose declarations were judged is one that is made by judging them. -/
theorem judged_run (h : ∀ space iri, Change.declare space iri ∉ changes) :
    (run changes).Judged := by
  induction changes using List.reverseRecOn with
  | nil => exact .empty
  | append_singleton changes c ih =>
    have hrun := ih fun space iri hmem => h space iri (List.mem_append_left _ hmem)
    rw [run_concat]
    cases c with
    | declare space iri => exact absurd (List.mem_append_right _ List.mem_cons_self) (h space iri)
    | insert space iri =>
      have hinserts := inserts_insert (run changes) space iri
      rw [after]
      generalize (run changes).insert space iri = answer at hinserts ⊢
      cases hinserts with
      | accepted hs hi => exact hrun.declare space iri hs hi
      | badName => exact hrun
      | badIri => exact hrun

/-- After any declarations a map keeps the order of insertion, tells its abbreviations apart and
answers with the last IRI that was accepted. A declaration that is refused leaves it as it is, with
the fault of the abbreviation before that of the IRI, and where all are judged all are valid. -/
theorem run_declares (changes : List Change) :
    (run changes).Maps (changes.filterMap Change.accepted?) ∧
    (∀ space iri, (run changes).Inserts space iri ((run changes).insert space iri)) ∧
    (∀ space iri e, ((run changes).insert space iri).2 = .error e →
      run (changes ++ [.insert space iri]) = run changes) ∧
    ((∀ space iri, Change.declare space iri ∉ changes) →
      ∀ p ∈ (run changes).declarations, isPrefixName p.1.toList = true ∧ isIri p.2.toList = true) := by
  refine ⟨maps_run changes, inserts_insert _, ?_, ?_⟩
  · intro space iri e he
    rw [run_concat, after, insert_of_error he]
  · intro hjudged p hp
    exact (judged_run hjudged).valid hp

def redeclared : List Change :=
  [.insert "a" "http://a/", .insert "b" "http://b/", .insert "1" "no", .insert "a" "http://o/"]

/-- The abbreviation that is declared twice keeps its place, and the other is refused for itself and
not for its IRI. -/
theorem run_declares_of_redeclared :
    (run redeclared).declarations = [("a", "http://o/"), ("b", "http://b/")] ∧
    (run redeclared).resolver "a" "x" = some "http://o/x" ∧
    ((run redeclared).insert "1" "no").2 = .error (.invalidPrefix "1") ∧
    run (redeclared ++ [.insert "1" "no"]) = run redeclared ∧
    ∀ p ∈ (run redeclared).declarations, isPrefixName p.1.toList = true ∧ isIri p.2.toList = true := by
  have hdeclarations : (run redeclared).declarations = [("a", "http://o/"), ("b", "http://b/")] := by
    decide +kernel
  have hjudged : ∀ space iri, Change.declare space iri ∉ redeclared := by simp [redeclared]
  obtain ⟨hmaps, hinserts, hrefused, hvalid⟩ := run_declares redeclared
  have herror : ((run redeclared).insert "1" "no").2 = .error (.invalidPrefix "1") := by
    have h := hinserts "1" "no"
    generalize (run redeclared).insert "1" "no" = answer at h
    cases h with
    | accepted hs => exact absurd hs (by decide)
    | badName => rfl
    | badIri hs => exact absurd hs (by decide)
  refine ⟨hdeclarations, ?_, herror, hrefused _ _ _ herror, hvalid hjudged⟩
  rw [hmaps.resolves]
  decide +kernel

end TabularShapes.PrefixMap
