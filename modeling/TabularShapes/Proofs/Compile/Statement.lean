import TabularShapes.Proofs.Compile.Naming

/-! What one statement becomes. The rules say which value a statement asks for and which warning goes
with it, and why it is refused; the compiler follows them exactly. -/

namespace TabularShapes.Compiler

variable {c : Compiler} {table : ShapeTable} {shape text : String} {st : Profile.Statement}
  {v : Value} {k : Constraint} {ws : List Warning} {e : CompileError} {n : Name}

/-- The value that a statement asks for, and the warnings that go with it. -/
inductive Gives (c : Compiler) (table : ShapeTable) (shape : String) (st : Profile.Statement) :
    Value → List Warning → Prop
  | datatype {text : String} {n : Name} (hd : st.datatype = some text) (hv : st.valueShape = none)
      (hk : ∀ k, st.nodeKind = some k → k = .literal) (hn : c.datatype text = .ok n) :
      Gives c table shape st (.datatype n) []
  | reference {text iri : String} {id : Name} (hd : st.datatype = none)
      (hv : st.valueShape = some text) (hk : st.nodeKind ≠ some .literal)
      (hi : c.iri? text = some iri) (hl : table.lookup iri = some id) :
      Gives c table shape st (.reference id) []
  | dropped {text iri : String} (hd : st.datatype = none) (hv : st.valueShape = some text)
      (hk : st.nodeKind ≠ some .literal) (hi : c.iri? text = some iri)
      (hl : table.lookup iri = none) (hc : c.lenient = true) :
      Gives c table shape st (valueOfKind st.nodeKind) [⟨text, shape, st.property⟩]
  | kind (hd : st.datatype = none) (hv : st.valueShape = none) :
      Gives c table shape st (valueOfKind st.nodeKind) []

inductive Refuses (c : Compiler) (table : ShapeTable) (shape : String) (st : Profile.Statement) :
    CompileError → Prop
  | conflict {text reference : String} (hd : st.datatype = some text)
      (hv : st.valueShape = some reference) :
      Refuses c table shape st (.conflictingValue shape st.property st.line)
  | datatypeKind {text : String} {kind : NodeKind} (hd : st.datatype = some text)
      (hv : st.valueShape = none) (hk : st.nodeKind = some kind) (hl : kind ≠ .literal) :
      Refuses c table shape st (.incompatibleKind shape st.property kind st.line)
  | datatype {text : String} {e : CompileError} (hd : st.datatype = some text)
      (hv : st.valueShape = none) (hk : ∀ k, st.nodeKind = some k → k = .literal)
      (hn : c.datatype text = .error e) : Refuses c table shape st e
  | referenceKind {text : String} (hd : st.datatype = none) (hv : st.valueShape = some text)
      (hk : st.nodeKind = some .literal) :
      Refuses c table shape st (.incompatibleKind shape st.property .literal st.line)
  | reference {text : String} {e : CompileError} (hd : st.datatype = none)
      (hv : st.valueShape = some text) (hk : st.nodeKind ≠ some .literal) (he : c.NameFault text e) :
      Refuses c table shape st e
  | dangling {text iri : String} (hd : st.datatype = none) (hv : st.valueShape = some text)
      (hk : st.nodeKind ≠ some .literal) (hi : c.iri? text = some iri)
      (hl : table.lookup iri = none) (hc : c.lenient = false) :
      Refuses c table shape st (.danglingReference text shape st.property)

theorem valueOfKind_ne_reference (kind : Option NodeKind) (n : Name) :
    valueOfKind kind ≠ .reference n := by
  cases kind <;> simp [valueOfKind]

theorem valueOfKind_ne_datatype (kind : Option NodeKind) (n : Name) :
    valueOfKind kind ≠ .datatype n := by
  cases kind <;> simp [valueOfKind]

theorem Gives.datatype_eq (h : c.Gives table shape st (.datatype n) ws) :
    ∃ text, c.datatype text = .ok n := by
  generalize hv : Value.datatype n = v at h
  cases h with
  | datatype _ _ _ hn => cases hv; exact ⟨_, hn⟩
  | reference => cases hv
  | dropped => exact absurd hv.symm (valueOfKind_ne_datatype _ _)
  | kind => exact absurd hv.symm (valueOfKind_ne_datatype _ _)

theorem Gives.lookup_eq (h : c.Gives table shape st (.reference n) ws) :
    ∃ iri, table.lookup iri = some n := by
  generalize hv : Value.reference n = v at h
  cases h with
  | datatype => cases hv
  | reference _ _ _ _ hl => cases hv; exact ⟨_, hl⟩
  | dropped => exact absurd hv.symm (valueOfKind_ne_reference _ _)
  | kind => exact absurd hv.symm (valueOfKind_ne_reference _ _)

theorem filter_kind_eq_none_iff :
    st.nodeKind.filter (· ≠ .literal) = none ↔ ∀ k, st.nodeKind = some k → k = .literal := by
  cases st.nodeKind <;> simp [Option.filter]

theorem filter_kind_eq_some_iff {kind : NodeKind} :
    st.nodeKind.filter (· ≠ .literal) = some kind ↔
      st.nodeKind = some kind ∧ kind ≠ .literal := by
  cases st.nodeKind <;> grind [Option.filter]

def refer (c : Compiler) (table : ShapeTable) (shape : String) (st : Profile.Statement)
    (text iri : String) : Except CompileError (Value × List Warning) :=
  match table.lookup iri with
  | some id => .ok (.reference id, [])
  | none =>
    if c.lenient then .ok (valueOfKind st.nodeKind, [⟨text, shape, st.property⟩])
    else .error (.danglingReference text shape st.property)

theorem value_of_conflict {reference : String} (hd : st.datatype = some text)
    (hv : st.valueShape = some reference) :
    (c.value table shape st).result = .error (.conflictingValue shape st.property st.line) := by
  simp [value, hd, hv]

theorem value_of_datatype (hd : st.datatype = some text) (hv : st.valueShape = none) :
    (c.value table shape st).result =
      match st.nodeKind.filter (· ≠ .literal) with
      | some kind => .error (.incompatibleKind shape st.property kind st.line)
      | none => (c.datatype text).map fun n => (.datatype n, []) := by
  simp only [value, hd, hv]
  rfl

theorem value_of_reference (hd : st.datatype = none) (hv : st.valueShape = some text) :
    (c.value table shape st).result =
      if st.nodeKind = some .literal then
        .error (.incompatibleKind shape st.property .literal st.line)
      else c.declaredName text >>= fun target =>
        c.refer table shape st text (target.identity c.prefixes) := by
  simp only [value, hd, hv]
  split
  · rfl
  · simp only [Traced.result_bind, Traced.liftM_eq_of, Traced.result_of]
    congr 1
    funext target
    rw [refer]
    cases table.lookup (target.identity c.prefixes) with
    | some id => rfl
    | none => cases c.lenient <;> rfl

theorem value_of_neither (hd : st.datatype = none) (hv : st.valueShape = none) :
    (c.value table shape st).result = .ok (valueOfKind st.nodeKind, []) := by
  simp [value, hd, hv]

theorem value_follows (c : Compiler) (table : ShapeTable) (shape : String)
    (st : Profile.Statement) :
    match (c.value table shape st).result with
    | .ok (v, ws) => c.Gives table shape st v ws
    | .error e => c.Refuses table shape st e := by
  cases hd : st.datatype with
  | some text =>
    cases hv : st.valueShape with
    | some reference =>
      rw [value_of_conflict hd hv]
      exact .conflict hd hv
    | none =>
      rw [value_of_datatype hd hv]
      cases hk : st.nodeKind.filter (· ≠ .literal) with
      | some kind =>
        obtain ⟨hk, hl⟩ := filter_kind_eq_some_iff.1 hk
        exact .datatypeKind hd hv hk hl
      | none =>
        cases hn : c.datatype text with
        | ok n => exact .datatype hd hv (filter_kind_eq_none_iff.1 hk) hn
        | error e => exact .datatype hd hv (filter_kind_eq_none_iff.1 hk) hn
  | none =>
    cases hv : st.valueShape with
    | none =>
      rw [value_of_neither hd hv]
      exact .kind hd hv
    | some text =>
      rw [value_of_reference hd hv]
      by_cases hk : st.nodeKind = some .literal
      · rw [if_pos hk]
        exact .referenceKind hd hv hk
      rw [if_neg hk]
      cases hn : c.declaredName text with
      | error e => exact .reference hd hv hk (declaredName_eq_error_iff.1 hn)
      | ok target =>
        have hi := iri?_of_declaredName hn
        simp only [bind, Except.bind, refer]
        cases hl : table.lookup (target.identity c.prefixes) with
        | some id => exact .reference hd hv hk hi hl
        | none =>
          cases hc : c.lenient with
          | true => exact .dropped hd hv hk hi hl hc
          | false => exact .dangling hd hv hk hi hl hc

theorem value_eq_ok_iff :
    (c.value table shape st).result = .ok (v, ws) ↔ c.Gives table shape st v ws := by
  refine ⟨?_, ?_⟩
  · intro h
    have := c.value_follows table shape st
    rwa [h] at this
  · intro h
    cases h with
    | datatype hd hv hk hn =>
      rw [value_of_datatype hd hv, filter_kind_eq_none_iff.2 hk, hn]
      rfl
    | reference hd hv hk hi hl =>
      obtain ⟨target, ht, rfl⟩ := declaredName_of_iri? hi
      rw [value_of_reference hd hv, if_neg hk, ht]
      simp [bind, Except.bind, refer, hl]
    | dropped hd hv hk hi hl hc =>
      obtain ⟨target, ht, rfl⟩ := declaredName_of_iri? hi
      rw [value_of_reference hd hv, if_neg hk, ht]
      simp [bind, Except.bind, refer, hl, hc]
    | kind hd hv => exact value_of_neither hd hv

theorem value_eq_error_iff :
    (c.value table shape st).result = .error e ↔ c.Refuses table shape st e := by
  refine ⟨?_, ?_⟩
  · intro h
    have := c.value_follows table shape st
    rwa [h] at this
  · intro h
    cases h with
    | conflict hd hv => exact value_of_conflict hd hv
    | datatypeKind hd hv hk hl =>
      rw [value_of_datatype hd hv, filter_kind_eq_some_iff.2 ⟨hk, hl⟩]
    | datatype hd hv hk hn =>
      rw [value_of_datatype hd hv, filter_kind_eq_none_iff.2 hk, hn]
      rfl
    | referenceKind hd hv hk => rw [value_of_reference hd hv, if_pos hk]
    | reference hd hv hk he =>
      rw [value_of_reference hd hv, if_neg hk, declaredName_eq_error_iff.2 he]
      rfl
    | dangling hd hv hk hi hl hc =>
      obtain ⟨target, ht, rfl⟩ := declaredName_of_iri? hi
      rw [value_of_reference hd hv, if_neg hk, ht]
      simp [bind, Except.bind, refer, hl, hc]

def constraintOf (st : Profile.Statement) (predicate : Name) (v : Value) : Constraint :=
  { predicate, value := v, label := st.label
    cardinality := Cardinality.ofFlags st.mandatory st.repeatable }

theorem result_constraint (c : Compiler) (table : ShapeTable) (shape : String)
    (st : Profile.Statement) :
    (c.constraint table shape st).result = c.declaredName st.property >>= fun p =>
      (c.value table shape st).result.map fun r => (constraintOf st p r.1, r.2) := by
  simp [constraint]
  rfl

theorem constraint_eq_ok_iff :
    (c.constraint table shape st).result = .ok (k, ws) ↔
      ∃ p v, c.declaredName st.property = .ok p ∧ c.Gives table shape st v ws ∧
        k = constraintOf st p v := by
  simp only [result_constraint, bind_eq_ok_iff, map_eq_ok_iff, Prod.mk.injEq, Prod.exists,
    value_eq_ok_iff]
  refine ⟨?_, ?_⟩
  · rintro ⟨p, hp, v, ws, hg, rfl, rfl⟩
    exact ⟨p, v, hp, hg, rfl⟩
  · rintro ⟨p, v, hp, hg, rfl⟩
    exact ⟨p, hp, v, ws, hg, rfl, rfl⟩

theorem constraint_eq_error_iff :
    (c.constraint table shape st).result = .error e ↔
      c.NameFault st.property e ∨
        ∃ p, c.declaredName st.property = .ok p ∧ c.Refuses table shape st e := by
  simp [result_constraint, bind_eq_error_iff, map_eq_error_iff, declaredName_eq_error_iff,
    value_eq_error_iff]

end TabularShapes.Compiler
