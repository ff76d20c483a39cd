import TabularShapes.Log.Traced
import Mathlib.Data.List.Forall2
import Mathlib.Data.List.Induction
import Mathlib.Data.List.Nodup

/-! How computations end that may fail. One made of parts succeeds if all of its parts do, and fails
with the failure of the first part that fails. Two computations agree if both succeed with related
values or both fail with related failures. -/

namespace TabularShapes

variable {ε ε' α α' β β' ω ω' : Type}

theorem bind_eq_ok_iff {x : Except ε α} {f : α → Except ε β} {b : β} :
    x >>= f = .ok b ↔ ∃ a, x = .ok a ∧ f a = .ok b := by
  cases x <;> simp [bind, Except.bind]

theorem bind_eq_error_iff {x : Except ε α} {f : α → Except ε β} {e : ε} :
    x >>= f = .error e ↔ x = .error e ∨ ∃ a, x = .ok a ∧ f a = .error e := by
  cases x <;> simp [bind, Except.bind]

theorem map_eq_ok_iff {x : Except ε α} {f : α → β} {b : β} :
    x.map f = .ok b ↔ ∃ a, x = .ok a ∧ f a = b := by
  cases x <;> simp [Except.map]

theorem map_eq_error_iff {x : Except ε α} {f : α → β} {e : ε} :
    x.map f = .error e ↔ x = .error e := by
  cases x <;> simp [Except.map]

theorem mapError_eq_ok_iff {x : Except ε α} {f : ε → ε'} {a : α} :
    x.mapError f = .ok a ↔ x = .ok a := by
  cases x <;> simp [Except.mapError]

theorem mapError_eq_error_iff {x : Except ε α} {f : ε → ε'} {e : ε'} :
    x.mapError f = .error e ↔ ∃ e₀, x = .error e₀ ∧ f e₀ = e := by
  cases x <;> simp [Except.mapError]

theorem exists_of_mem_right {R : α → β → Prop} {as : List α} {bs : List β} {b : β}
    (h : List.Forall₂ R as bs) (hb : b ∈ bs) : ∃ a ∈ as, R a b := by
  induction h with
  | nil => cases hb
  | cons hr _ ih =>
    rcases List.mem_cons.1 hb with rfl | hb
    · exact ⟨_, List.mem_cons_self, hr⟩
    · obtain ⟨a, ha, h⟩ := ih hb
      exact ⟨a, List.mem_cons_of_mem _ ha, h⟩

theorem exists_of_mem_left {R : α → β → Prop} {as : List α} {bs : List β} {a : α}
    (h : List.Forall₂ R as bs) (ha : a ∈ as) : ∃ b ∈ bs, R a b :=
  exists_of_mem_right h.flip ha

theorem exists_getElem?_left {R : α → β → Prop} {as : List α} {bs : List β} {k : ℕ} {a : α}
    (h : List.Forall₂ R as bs) (ha : as[k]? = some a) : ∃ b, bs[k]? = some b ∧ R a b := by
  induction h generalizing k with
  | nil => simp at ha
  | cons hr _ ih =>
    cases k with
    | zero =>
      cases ha
      exact ⟨_, rfl, hr⟩
    | succ k => exact ih ha

theorem exists_getElem?_right {R : α → β → Prop} {as : List α} {bs : List β} {k : ℕ} {b : β}
    (h : List.Forall₂ R as bs) (hb : bs[k]? = some b) : ∃ a, as[k]? = some a ∧ R a b :=
  exists_getElem?_left h.flip hb

theorem zip_of_forall₂ {R : α → α' → Prop} {S : β → β' → Prop} {as : List α} {as' : List α'}
    {bs : List β} {bs' : List β'} (h : List.Forall₂ R as as') (hs : List.Forall₂ S bs bs') :
    List.Forall₂ (fun p p' => R p.1 p'.1 ∧ S p.2 p'.2) (as.zip bs) (as'.zip bs') := by
  induction h generalizing bs bs' with
  | nil => exact .nil
  | cons h _ ih =>
    cases hs with
    | nil => exact .nil
    | cons hs₁ hs => exact .cons ⟨h, hs₁⟩ (ih hs)

/-- Steps that another run can follow, one by one, make a run that the other can follow. -/
theorem exists_forall₂_of_step {R : α → β' → Prop} {S : α → β → Prop} {T : β → β' → Prop}
    {as : List α} {bs' : List β'} (h : List.Forall₂ R as bs')
    (hstep : ∀ a b', R a b' → ∃ b, S a b ∧ T b b') :
    ∃ bs, List.Forall₂ S as bs ∧ List.Forall₂ T bs bs' := by
  induction h with
  | nil => exact ⟨[], .nil, .nil⟩
  | cons ha _ ih =>
    obtain ⟨b, hs, ht⟩ := hstep _ _ ha
    obtain ⟨bs, hss, hts⟩ := ih
    exact ⟨b :: bs, .cons hs hss, .cons ht hts⟩

theorem flatMap_of_forall₂ {g : α → List β'} {as : List α} {rs : List (β × List β')}
    (h : List.Forall₂ (fun a r => r.2 = g a) as rs) : rs.flatMap (·.2) = as.flatMap g := by
  induction h with
  | nil => rfl
  | cons hr _ ih => rw [List.flatMap_cons, List.flatMap_cons, hr, ih]

/-- Parts with related values and the same warnings have related values and the same warnings
together. -/
theorem collected_of_forall₂ {T : β → β' → Prop} {rs : List (β × List ω)} {rs' : List (β' × List ω)}
    (h : List.Forall₂ (fun r r' => T r.1 r'.1 ∧ r'.2 = r.2) rs rs') :
    List.Forall₂ T (rs.map (·.1)) (rs'.map (·.1)) ∧ rs'.flatMap (·.2) = rs.flatMap (·.2) := by
  constructor
  · rw [List.forall₂_map_left_iff, List.forall₂_map_right_iff]
    exact h.imp fun _ _ hr => hr.1
  · exact flatMap_of_forall₂ (h.imp fun _ _ hr => hr.2)

theorem findSome?_or_of_none {f g : α → Option β} {l : List α}
    (h : ∀ a ∈ l, f a = none) : (l.findSome? fun a => (f a).or (g a)) = l.findSome? g := by
  induction l with
  | nil => rfl
  | cons a l ih =>
    rw [List.findSome?_cons, List.findSome?_cons, h a List.mem_cons_self, Option.none_or,
      ih fun b hb => h b (List.mem_cons_of_mem _ hb)]

theorem mem_iff_find? {κ : Type} [DecidableEq κ] {key : α → κ} {l : List α}
    (h : (l.map key).Nodup) {a : α} : a ∈ l ↔ l.find? (fun b => key b == key a) = some a := by
  constructor
  · intro ha
    cases hf : l.find? (fun b => key b == key a) with
    | none => exact absurd (List.find?_eq_none.1 hf a ha) (by simp)
    | some b =>
      have hkey : key b = key a := by simpa using List.find?_some hf
      rw [List.inj_on_of_nodup_map h (List.mem_of_find?_eq_some hf) ha hkey]
  · exact List.mem_of_find?_eq_some

theorem eraseDups_concat [DecidableEq α] (l : List α) (a : α) :
    (l ++ [a]).eraseDups = if a ∈ l then l.eraseDups else l.eraseDups ++ [a] := by
  rw [List.eraseDups_append]
  by_cases h : a ∈ l <;> simp [List.removeAll, h, List.eraseDups_cons]

theorem nodup_eraseDups [DecidableEq α] (l : List α) : l.eraseDups.Nodup := by
  induction l using List.reverseRecOn with
  | nil => exact List.nodup_nil
  | append_singleton l a ih =>
    rw [eraseDups_concat]
    split_ifs with h
    · exact ih
    · exact List.concat_eq_append ▸ ih.concat fun ha => h (List.mem_eraseDups.1 ha)

/-- The last element with a key is a new one if that has the key. -/
theorem findRev?_concat {κ : Type} [DecidableEq κ] (key : α → κ) (l : List α) (a : α) (k : κ) :
    (l ++ [a]).findRev? (fun b => key b == k) =
      if key a = k then some a else l.findRev? (fun b => key b == k) := by
  rw [List.findRev?_eq_find?_reverse, List.reverse_concat, List.findRev?_eq_find?_reverse]
  by_cases h : key a = k
  · simp [h]
  · simp [h, beq_false_of_ne h]

theorem toOption_eq_some_iff {x : Except ε α} {a : α} : x.toOption = some a ↔ x = .ok a := by
  cases x <;> simp [Except.toOption]

def failure? : Except ε α → Option ε
  | .ok _ => none
  | .error e => some e

@[simp] theorem failure?_ok (a : α) : failure? (.ok a : Except ε α) = none := rfl

@[simp] theorem failure?_error (e : ε) : failure? (.error e : Except ε α) = some e := rfl

@[simp] theorem failure?_eq_none_iff {x : Except ε α} : failure? x = none ↔ ∃ a, x = .ok a := by
  cases x <;> simp

@[simp] theorem failure?_eq_some_iff {x : Except ε α} {e : ε} :
    failure? x = some e ↔ x = .error e := by
  cases x <;> simp

@[simp] theorem failure?_map (x : Except ε α) (f : α → β) : failure? (x.map f) = failure? x := by
  cases x <;> rfl

theorem failure?_bind {x : Except ε α} {f : α → Except ε β} {o : Option ε}
    (h : ∀ a, x = .ok a → failure? (f a) = o) : failure? (x >>= f) = (failure? x).or o := by
  cases x with
  | ok a => exact h a rfl
  | error e => rfl

/-- Two results that are both failures related by `E`, or both values related by `R`. -/
inductive Agree (E : ε → ε' → Prop) (R : α → α' → Prop) : Except ε α → Except ε' α' → Prop
  | ok {a : α} {a' : α'} (h : R a a') : Agree E R (.ok a) (.ok a')
  | error {e : ε} {e' : ε'} (h : E e e') : Agree E R (.error e) (.error e')

namespace Agree

variable {E : ε → ε' → Prop} {R : α → α' → Prop} {S : β → β' → Prop}

theorem mono {R' : α → α' → Prop} {x : Except ε α} {x' : Except ε' α'} (h : Agree E R x x')
    (hR : ∀ a a', R a a' → R' a a') : Agree E R' x x' := by
  cases h with
  | ok h => exact .ok (hR _ _ h)
  | error h => exact .error h

/-- Related values are those of the computations. -/
theorem attach {x : Except ε α} {x' : Except ε' α'} (h : Agree E R x x') :
    Agree E (fun a a' => R a a' ∧ x = .ok a ∧ x' = .ok a') x x' := by
  cases h with
  | ok h => exact .ok ⟨h, rfl, rfl⟩
  | error h => exact .error h

theorem bind {x : Except ε α} {x' : Except ε' α'} {f : α → Except ε β} {f' : α' → Except ε' β'}
    (h : Agree E R x x') (hf : ∀ a a', R a a' → Agree E S (f a) (f' a')) :
    Agree E S (x >>= f) (x' >>= f') := by
  cases h with
  | ok h => exact hf _ _ h
  | error h => exact .error h

theorem map {x : Except ε α} {x' : Except ε' α'} {f : α → β} {f' : α' → β'}
    (h : Agree E R x x') (hf : ∀ a a', R a a' → S (f a) (f' a')) :
    Agree E S (x.map f) (x'.map f') := by
  cases h with
  | ok h => exact .ok (hf _ _ h)
  | error h => exact .error h

theorem mapError {ε₁ ε₁' : Type} {E₁ : ε₁ → ε₁' → Prop} {x : Except ε α} {x' : Except ε' α'}
    {f : ε → ε₁} {f' : ε' → ε₁'} (h : Agree E R x x') (hf : ∀ e e', E e e' → E₁ (f e) (f' e')) :
    Agree E₁ R (x.mapError f) (x'.mapError f') := by
  cases h with
  | ok h => exact .ok h
  | error h => exact .error (hf _ _ h)

theorem exists_ok {x : Except ε α} {x' : Except ε' α'} {a' : α'} (h : Agree E R x x')
    (hx : x' = .ok a') : ∃ a, x = .ok a ∧ R a a' := by
  cases h with
  | ok h =>
    cases hx
    exact ⟨_, rfl, h⟩
  | error h => cases hx

theorem exists_error {x : Except ε α} {x' : Except ε' α'} {e' : ε'} (h : Agree E R x x')
    (hx : x' = .error e') : ∃ e, x = .error e ∧ E e e' := by
  cases h with
  | ok h => cases hx
  | error h =>
    cases hx
    exact ⟨_, rfl, h⟩

end Agree

/-- The values of the parts in order, and their warnings one after the other. -/
def collect (f : α → Except ε (β × List ω)) : List α → Except ε (List β × List ω)
  | [] => .ok ([], [])
  | a :: as => do
    let (b, ws) ← f a
    let (bs, more) ← collect f as
    return (b :: bs, ws ++ more)

variable {f : α → Except ε (β × List ω)}

theorem collect_cons_eq_ok_iff {a : α} {as : List α} {r : List β × List ω} :
    collect f (a :: as) = .ok r ↔ ∃ b bs, f a = .ok b ∧ collect f as = .ok bs ∧
      r = (b.1 :: bs.1, b.2 ++ bs.2) := by
  simp only [collect, bind_eq_ok_iff]
  refine ⟨?_, ?_⟩
  · rintro ⟨b, hb, bs, hbs, h⟩
    cases h
    exact ⟨b, bs, hb, hbs, rfl⟩
  · rintro ⟨b, bs, hb, hbs, rfl⟩
    exact ⟨b, hb, bs, hbs, rfl⟩

theorem collect_eq_ok_iff {as : List α} {bs : List β} {ws : List ω} :
    collect f as = .ok (bs, ws) ↔ ∃ rs, List.Forall₂ (fun a r => f a = .ok r) as rs ∧
      bs = rs.map (·.1) ∧ ws = rs.flatMap (·.2) := by
  induction as generalizing bs ws with
  | nil => simp [collect, eq_comm]
  | cons a as ih =>
    rw [collect_cons_eq_ok_iff]
    refine ⟨?_, ?_⟩
    · rintro ⟨r, ⟨bs, ws⟩, hr, hrs, h⟩
      obtain ⟨rs, hf, rfl, rfl⟩ := ih.1 hrs
      cases h
      exact ⟨r :: rs, .cons hr hf, rfl, rfl⟩
    · rintro ⟨_, hf, rfl, rfl⟩
      cases hf with
      | @cons _ r _ rs hr hf =>
        exact ⟨r, (rs.map (·.1), rs.flatMap (·.2)), hr, ih.2 ⟨rs, hf, rfl, rfl⟩, rfl⟩

theorem failure?_collect (as : List α) :
    failure? (collect f as) = as.findSome? fun a => failure? (f a) := by
  induction as with
  | nil => rfl
  | cons a as ih =>
    have hrest : ∀ b, f a = .ok b →
        failure? (collect f as >>= fun bs => pure (b.1 :: bs.1, b.2 ++ bs.2)) =
          as.findSome? fun a => failure? (f a) := by
      intro b _
      rw [failure?_bind (o := none) fun _ _ => rfl, Option.or_none, ih]
    rw [collect, failure?_bind hrest, List.findSome?_cons]
    cases failure? (f a) <;> rfl

theorem Agree.collect {α' : Type} {E : ε → ε' → Prop} {P : α → α' → Prop}
    {R : β × List ω → β' × List ω' → Prop} {f' : α' → Except ε' (β' × List ω')}
    {as : List α} {as' : List α'} (h : List.Forall₂ P as as')
    (hf : ∀ a a', P a a' → Agree E R (f a) (f' a')) :
    Agree E (fun r r' => ∃ rs rs', List.Forall₂ R rs rs' ∧ r = (rs.map (·.1), rs.flatMap (·.2)) ∧
      r' = (rs'.map (·.1), rs'.flatMap (·.2))) (collect f as) (collect f' as') := by
  induction h with
  | nil => exact .ok ⟨[], [], .nil, rfl, rfl⟩
  | cons ha _ ih =>
    refine (hf _ _ ha).bind fun r r' hr => ih.bind ?_
    rintro _ _ ⟨rs, rs', hrs, rfl, rfl⟩
    exact .ok ⟨r :: rs, r' :: rs', .cons hr hrs, rfl, rfl⟩

/-! ### The first of a list -/

/-- What `P` holds of at the first element where it holds of anything. -/
def First (P : α → ε → Prop) (l : List α) (e : ε) : Prop :=
  ∃ before a after, l = before ++ a :: after ∧ (∀ b ∈ before, ∀ e', ¬P b e') ∧ P a e

section First

variable {P : α → ε → Prop} {a : α} {l l' : List α} {e : ε}

theorem not_first_nil : ¬First P [] e := by
  rintro ⟨before, a, after, h, -⟩
  simp at h

theorem first_cons_iff : First P (a :: l) e ↔ P a e ∨ (¬∃ e', P a e') ∧ First P l e := by
  constructor
  · rintro ⟨before, b, after, h, hbefore, hb⟩
    cases before with
    | nil =>
      cases h
      exact .inl hb
    | cons b' before =>
      cases h
      obtain ⟨ha, hbefore⟩ := List.forall_mem_cons.1 hbefore
      exact .inr ⟨not_exists.2 ha, before, b, after, rfl, hbefore, hb⟩
  · rintro (ha | ⟨ha, before, b, after, rfl, hbefore, hb⟩)
    · exact ⟨[], a, l, rfl, by simp, ha⟩
    · exact ⟨a :: before, b, after, rfl, List.forall_mem_cons.2 ⟨not_exists.1 ha, hbefore⟩, hb⟩

theorem exists_first_iff : (∃ e, First P l e) ↔ ∃ a ∈ l, ∃ e, P a e := by
  induction l with
  | nil => simp [not_first_nil]
  | cons a l ih =>
    simp only [first_cons_iff, exists_or, exists_and_left, ih, List.mem_cons, exists_eq_or_imp]
    tauto

theorem first_append_iff :
    First P (l ++ l') e ↔ First P l e ∨ (¬∃ e', First P l e') ∧ First P l' e := by
  induction l with
  | nil => simp [not_first_nil]
  | cons a l ih =>
    simp only [List.cons_append, first_cons_iff, ih, exists_or, exists_and_left]
    tauto

theorem first_flatMap_iff {f : β → List α} {bs : List β} :
    First P (bs.flatMap f) e ↔ First (fun b => First P (f b)) bs e := by
  induction bs with
  | nil => simp [not_first_nil]
  | cons b bs ih => rw [List.flatMap_cons, first_append_iff, first_cons_iff, ih]

theorem findSome?_eq_some_iff_first {f : α → Option ε} :
    l.findSome? f = some e ↔ First (fun a e => f a = some e) l e := by
  induction l with
  | nil => simp [not_first_nil]
  | cons a l ih =>
    rw [first_cons_iff, List.findSome?_cons, ← ih]
    cases f a <;> simp

end First

end TabularShapes
