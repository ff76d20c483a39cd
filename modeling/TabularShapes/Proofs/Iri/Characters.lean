import TabularShapes.Name.Basic
import TabularShapes.Proofs.Outcome
import Mathlib.Data.List.TakeWhile

/-! The characters of an absolute IRI. Whatever component a character is read in, it is one that a
query may hold or one of the signs `%`, `#`, `[` and `]`, so that no space, no control character and
no angle bracket ever stands in an IRI. -/

namespace TabularShapes.Iri

/-- A character that may stand in some part of an IRI. -/
def isIriChar (c : Char) : Bool := isQueryChar c || c == '%' || c == '#' || c == '[' || c == ']'

def AllIriChars (cs : List Char) : Prop := ∀ c ∈ cs, isIriChar c = true

variable {cs rest : List Char} {c : Char} {allowed stop : Char → Bool}

theorem allIriChars_cons : AllIriChars (c :: cs) ↔ isIriChar c = true ∧ AllIriChars cs := by
  simp [AllIriChars]

theorem allIriChars_append : AllIriChars (cs ++ rest) ↔ AllIriChars cs ∧ AllIriChars rest := by
  simp [AllIriChars, or_imp, forall_and]

theorem allIriChars_nil : AllIriChars [] := by simp [AllIriChars]

theorem isIriChar_of_isQueryChar (h : isQueryChar c = true) : isIriChar c = true := by
  simp [isIriChar, h]

theorem isIriChar_of_isFragmentChar (h : isFragmentChar c = true) : isIriChar c = true := by
  simp [isIriChar, isQueryChar, h]

theorem isIriChar_of_isPathChar (h : isPathChar c = true) : isIriChar c = true := by
  simp [isIriChar, isQueryChar, isFragmentChar, h]

theorem isIriChar_of_isPlain (h : isPlain c = true) : isIriChar c = true := by
  simp [isIriChar, isQueryChar, isFragmentChar, isPathChar, h]

theorem isIriChar_of_isAuthorityChar (h : isAuthorityChar c = true) : isIriChar c = true := by
  simp only [isAuthorityChar, Bool.or_eq_true, beq_iff_eq] at h
  rcases h with h | rfl
  · exact isIriChar_of_isPlain h
  · decide

theorem isIriChar_of_isAlphanum (h : c.isAlphanum = true) : isIriChar c = true :=
  isIriChar_of_isPlain (by simp [isPlain, isPlainAscii, h])

theorem isIriChar_of_isDigit (h : c.isDigit = true) : isIriChar c = true :=
  isIriChar_of_isAlphanum (by simp [Char.isAlphanum, h])

theorem isIriChar_of_isSchemeChar (h : isSchemeChar c = true) : isIriChar c = true := by
  simp only [isSchemeChar, Bool.or_eq_true, beq_iff_eq] at h
  rcases h with ((h | rfl) | rfl) | rfl
  · exact isIriChar_of_isAlphanum h
  · decide
  · decide
  · decide

theorem isAlphanum_iff : c.isAlphanum = true ↔
    (65 ≤ c.toNat ∧ c.toNat ≤ 90 ∨ 97 ≤ c.toNat ∧ c.toNat ≤ 122) ∨
      48 ≤ c.toNat ∧ c.toNat ≤ 57 := by
  have hranges : c.isAlphanum = (decide (65 ≤ c.val ∧ c.val ≤ 90) ||
      (97 ≤ c.val && c.val ≤ 122) || (48 ≤ c.val && c.val ≤ 57)) := rfl
  simp only [hranges, Bool.or_eq_true, Bool.and_eq_true, decide_eq_true_eq,
    UInt32.le_iff_toNat_le]
  rfl

theorem isAlphanum_of_isHexDigit (h : isHexDigit c = true) : c.isAlphanum = true := by
  simp only [isHexDigit, Text.hexDigit?, Char.le_def, UInt32.le_iff_toNat_le] at h
  split at h
  · next hd => simp [Char.isAlphanum, hd]
  · split at h
    · next hl =>
      have : 97 ≤ c.toNat ∧ c.toNat ≤ 102 := hl
      exact isAlphanum_iff.2 (by omega)
    · split at h
      · next hl =>
        have : 65 ≤ c.toNat ∧ c.toNat ≤ 70 := hl
        exact isAlphanum_iff.2 (by omega)
      · cases h

theorem isIriChar_of_isHexDigit (h : isHexDigit c = true) : isIriChar c = true :=
  isIriChar_of_isAlphanum (isAlphanum_of_isHexDigit h)

def isAddressChar (c : Char) : Bool := isPlainAscii c || c == ':'

theorem isIriChar_of_isAddressChar (h : isAddressChar c = true) : isIriChar c = true := by
  simp only [isAddressChar, Bool.or_eq_true, beq_iff_eq] at h
  rcases h with h | rfl
  · exact isIriChar_of_isPlain (by simp [isPlain, h])
  · decide

theorem isAddressChar_of_isAlphanum (h : c.isAlphanum = true) : isAddressChar c = true := by
  simp [isAddressChar, isPlainAscii, h]

theorem isAddressChar_of_isHexDigit (h : isHexDigit c = true) : isAddressChar c = true :=
  isAddressChar_of_isAlphanum (isAlphanum_of_isHexDigit h)

theorem isAddressChar_of_isDigit (h : c.isDigit = true) : isAddressChar c = true :=
  isAddressChar_of_isAlphanum (by simp [Char.isAlphanum, h])

/-- Nothing is left after a component, or it stopped at what is left. -/
def StopsBefore (stop : Char → Bool) : List Char → Prop
  | [] => True
  | c :: _ => stop c = true

theorem component_eq_ok (h : component allowed stop cs = .ok rest) :
    StopsBefore stop rest ∧ ∃ read, cs = read ++ rest ∧
      ∀ c ∈ read, allowed c = true ∨ c = '%' ∨ isHexDigit c = true := by
  fun_induction component allowed stop cs with
  | case1 =>
    cases h
    exact ⟨trivial, [], rfl, by simp⟩
  | case2 a b r hab ih =>
    obtain ⟨hs, read, rfl, hread⟩ := ih h
    simp only [Bool.and_eq_true] at hab
    refine ⟨hs, '%' :: a :: b :: read, rfl, ?_⟩
    simp only [List.forall_mem_cons]
    exact ⟨.inr (.inl trivial), .inr (.inr hab.1), .inr (.inr hab.2), hread⟩
  | case3 => cases h
  | case4 => cases h
  | case5 c r _ _ hc =>
    cases h
    exact ⟨hc, [], rfl, by simp⟩
  | case6 c r _ _ _ hc ih =>
    obtain ⟨hs, read, rfl, hread⟩ := ih h
    exact ⟨hs, c :: read, rfl, List.forall_mem_cons.2 ⟨.inl hc, hread⟩⟩
  | case7 => cases h

/-- What a component reads are IRI characters, so that the whole is made of them if the rest is. -/
theorem allIriChars_of_component (hall : ∀ c, allowed c = true → isIriChar c = true)
    (h : component allowed stop cs = .ok rest) (hrest : AllIriChars rest) : AllIriChars cs := by
  obtain ⟨-, read, rfl, hread⟩ := component_eq_ok h
  refine allIriChars_append.2 ⟨?_, hrest⟩
  intro c hc
  rcases hread c hc with hc | rfl | hc
  · exact hall c hc
  · decide
  · exact isIriChar_of_isHexDigit hc

theorem fragmentOnward_eq_ok (hs : StopsBefore (· == '#') cs) (h : fragmentOnward cs = .ok ()) :
    AllIriChars cs := by
  cases cs with
  | nil => exact allIriChars_nil
  | cons c cs =>
    obtain rfl : c = '#' := by simpa [StopsBefore] using hs
    obtain ⟨rest, hc, -⟩ := map_eq_ok_iff.1 h
    obtain ⟨hr, -⟩ := component_eq_ok hc
    obtain rfl : rest = [] := by
      cases rest with
      | nil => rfl
      | cons c rest => cases hr
    refine allIriChars_cons.2 ⟨by decide, ?_⟩
    exact allIriChars_of_component (fun _ => isIriChar_of_isFragmentChar) hc allIriChars_nil

theorem queryOnward_eq_ok (hs : StopsBefore (fun c => c == '?' || c == '#') cs)
    (h : queryOnward cs = .ok ()) : AllIriChars cs := by
  cases cs with
  | nil => exact allIriChars_nil
  | cons c cs =>
    have hc : c = '?' ∨ c = '#' := by simpa [StopsBefore] using hs
    rcases hc with rfl | rfl
    · obtain ⟨rest, hc, hf⟩ := bind_eq_ok_iff.1 h
      have hrest := fragmentOnward_eq_ok (component_eq_ok hc).1 hf
      refine allIriChars_cons.2 ⟨by decide, ?_⟩
      exact allIriChars_of_component (fun _ => isIriChar_of_isQueryChar) hc hrest
    · exact fragmentOnward_eq_ok (by simp [StopsBefore]) h

theorem pathOnward_eq_ok (h : pathOnward cs = .ok ()) : AllIriChars cs := by
  obtain ⟨rest, hc, hq⟩ := bind_eq_ok_iff.1 h
  have hrest := queryOnward_eq_ok (component_eq_ok hc).1 hq
  exact allIriChars_of_component (fun _ => isIriChar_of_isPathChar) hc hrest

theorem portOnward_eq_ok (h : portOnward cs = .ok ()) : AllIriChars cs := by
  rw [← List.takeWhile_append_dropWhile (p := Char.isDigit) (l := cs), allIriChars_append]
  refine ⟨fun c hc => isIriChar_of_isDigit (List.mem_takeWhile_imp hc), ?_⟩
  rw [portOnward] at h
  split at h
  · next hd =>
    rw [hd]
    exact allIriChars_nil
  · next c rest hd =>
    split at h
    · rw [hd]
      exact pathOnward_eq_ok h
    · cases h

theorem afterBracket_eq_ok (h : afterBracket cs = .ok ()) : AllIriChars cs := by
  unfold afterBracket at h
  split at h
  · exact allIriChars_nil
  · exact allIriChars_cons.2 ⟨by decide, portOnward_eq_ok h⟩
  · split at h
    · exact pathOnward_eq_ok h
    · cases h

theorem forall_mem_of_splitAt {sep : Char} {p : Char → Prop} (hsep : p sep)
    (h : ∀ part ∈ Text.splitAt sep cs, ∀ c ∈ part, p c) : ∀ c ∈ cs, p c := by
  induction cs with
  | nil => simp
  | cons c cs ih =>
    rw [Text.splitAt] at h
    split at h
    · next hc =>
      rw [hc]
      exact List.forall_mem_cons.2 ⟨hsep, ih fun part hp => h part (List.mem_cons_of_mem _ hp)⟩
    · split at h
      · next hn => exact (Text.splitAt_ne_nil hn).elim
      · next part parts hp =>
        have hfirst := List.forall_mem_cons.1 (h _ List.mem_cons_self)
        refine List.forall_mem_cons.2 ⟨hfirst.1, ih fun q hq => ?_⟩
        rw [hp] at hq
        rcases List.mem_cons.1 hq with rfl | hq
        · exact hfirst.2
        · exact h q (List.mem_cons_of_mem _ hq)

def AllAddressChars (cs : List Char) : Prop := ∀ c ∈ cs, isAddressChar c = true

theorem allAddressChars_cons :
    AllAddressChars (c :: cs) ↔ isAddressChar c = true ∧ AllAddressChars cs := by
  simp [AllAddressChars]

theorem allAddressChars_append :
    AllAddressChars (cs ++ rest) ↔ AllAddressChars cs ∧ AllAddressChars rest := by
  simp [AllAddressChars, or_imp, forall_and]

theorem allAddressChars_nil : AllAddressChars [] := by simp [AllAddressChars]

theorem allAddressChars_of_isGroup (h : isGroup cs = true) : AllAddressChars cs := by
  simp only [isGroup, Bool.and_eq_true, List.all_eq_true] at h
  exact fun c hc => isAddressChar_of_isHexDigit (h.2 c hc)

theorem allAddressChars_of_isOctet (h : isOctet cs = true) : AllAddressChars cs := by
  rw [isOctet.eq_def] at h
  split at h
  · exact fun c hc => by simp_all; decide
  · cases h
  · simp only [Bool.and_eq_true, Text.isDecimal, List.all_eq_true] at h
    exact fun c hc => isAddressChar_of_isDigit (h.1.1.2 c hc)

theorem allAddressChars_of_isIpv4 (h : isIpv4 cs = true) : AllAddressChars cs := by
  simp only [isIpv4, Bool.and_eq_true, List.all_eq_true] at h
  exact forall_mem_of_splitAt (by decide) fun part hp => allAddressChars_of_isOctet (h.2 part hp)

theorem allAddressChars_of_countGroups {tail : Bool} {parts : List (List Char)} {n : Nat}
    (h : countGroups tail parts = some n) : ∀ part ∈ parts, AllAddressChars part := by
  fun_induction countGroups tail parts generalizing n with
  | case1 => simp
  | case2 last hg => simpa using allAddressChars_of_isGroup hg
  | case3 last _ hv =>
    simp only [Bool.and_eq_true] at hv
    simpa using allAddressChars_of_isIpv4 hv.2
  | case4 => cases h
  | case5 part parts _ hg ih =>
    obtain ⟨m, hm, -⟩ := Option.map_eq_some_iff.1 h
    intro q hq
    rcases List.mem_cons.1 hq with rfl | hq
    · exact allAddressChars_of_isGroup hg
    · exact ih hm q hq
  | case6 => cases h

theorem allAddressChars_of_groupsIn {tail : Bool} {n : Nat} (h : groupsIn tail cs = some n) :
    AllAddressChars cs := by
  rw [groupsIn.eq_def] at h
  split at h
  · exact allAddressChars_nil
  · exact forall_mem_of_splitAt (by decide) (allAddressChars_of_countGroups h)

theorem eq_of_cutAtGap {a b : List Char} (h : cutAtGap cs = some (a, b)) :
    cs = a ++ ':' :: ':' :: b := by
  fun_induction cutAtGap cs generalizing a with
  | case1 rest =>
    cases h
    rfl
  | case2 c rest _ ih =>
    obtain ⟨⟨a', b'⟩, h', he⟩ := Option.map_eq_some_iff.1 h
    cases he
    rw [ih h', List.cons_append]
  | case3 => cases h

theorem allAddressChars_of_isIpv6 (h : isIpv6 cs = true) : AllAddressChars cs := by
  rw [isIpv6] at h
  split at h
  · exact allAddressChars_of_groupsIn (by simpa using h)
  · next a b hcut =>
    split at h
    · next ha hb =>
      rw [eq_of_cutAtGap hcut, allAddressChars_append, allAddressChars_cons, allAddressChars_cons]
      exact ⟨allAddressChars_of_groupsIn ha, by decide, by decide, allAddressChars_of_groupsIn hb⟩
    · cases h

theorem allAddressChars_of_futureFault? (h : futureFault? (c :: cs) = none) :
    AllAddressChars cs := by
  rw [← List.takeWhile_append_dropWhile (p := isHexDigit) (l := cs), allAddressChars_append]
  refine ⟨fun c hc => isAddressChar_of_isHexDigit (List.mem_takeWhile_imp hc), ?_⟩
  simp only [futureFault?, List.drop_succ_cons, List.drop_zero] at h
  split at h
  · cases h
  · next d rest hd =>
    rw [hd]
    split at h
    · cases h
    · next hdot =>
      obtain rfl : d = '.' := by simpa using hdot
      refine allAddressChars_cons.2 ⟨by decide, fun c hc => ?_⟩
      split at h
      · cases h
      · cases h
      · have hchar := List.find?_eq_none.1 h c hc
        simpa only [isAddressChar, Bool.not_eq_true, Bool.not_eq_false'] using hchar

/-- What stands between brackets are address characters, none of which ends a host. -/
theorem bracketed_eq_ok (h : bracketed cs = .ok ()) : AllAddressChars cs := by
  rw [bracketed.eq_def] at h
  split at h
  · split at h
    · cases h
    · next hf => exact allAddressChars_cons.2 ⟨by decide, allAddressChars_of_futureFault? hf⟩
  · split at h
    · cases h
    · next hf => exact allAddressChars_cons.2 ⟨by decide, allAddressChars_of_futureFault? hf⟩
  · split at h
    · next hv => exact allAddressChars_of_isIpv6 hv
    · cases h

theorem hostOnward_eq_ok (h : hostOnward cs = .ok ()) : AllIriChars cs := by
  rw [hostOnward.eq_def] at h
  split at h
  · next rest =>
    split at h
    · cases h
    · next address rest hcut =>
      obtain ⟨⟨⟩, hb, ha⟩ := bind_eq_ok_iff.1 h
      rw [(Text.eq_of_cutAt hcut).1, allIriChars_cons, allIriChars_append, allIriChars_cons]
      exact ⟨by decide, fun c hc => isIriChar_of_isAddressChar (bracketed_eq_ok hb c hc),
        by decide, afterBracket_eq_ok ha⟩
  · obtain ⟨rest, hc, hr⟩ := bind_eq_ok_iff.1 h
    apply allIriChars_of_component (fun _ => isIriChar_of_isPlain) hc
    split at hr
    · exact allIriChars_cons.2 ⟨by decide, portOnward_eq_ok hr⟩
    · exact pathOnward_eq_ok hr

theorem authorityOnward_eq_ok (h : authorityOnward cs = .ok ()) : AllIriChars cs := by
  obtain ⟨rest, hc, hr⟩ := bind_eq_ok_iff.1 h
  split at hr
  · apply allIriChars_of_component (fun _ => isIriChar_of_isAuthorityChar) hc
    exact allIriChars_cons.2 ⟨by decide, hostOnward_eq_ok hr⟩
  · exact hostOnward_eq_ok hr

theorem afterScheme_eq_ok (h : afterScheme cs = .ok ()) : AllIriChars cs := by
  rw [afterScheme.eq_def] at h
  split at h
  · rw [allIriChars_cons, allIriChars_cons]
    exact ⟨by decide, by decide, authorityOnward_eq_ok h⟩
  · exact pathOnward_eq_ok h

theorem scheme?_eq_some (h : scheme? cs = some rest) : AllIriChars rest → AllIriChars cs := by
  intro hrest
  cases cs with
  | nil => cases h
  | cons c cs =>
    rw [scheme?] at h
    split at h
    · next hc =>
      split at h
      · next r hd =>
        cases h
        rw [allIriChars_cons, ← List.takeWhile_append_dropWhile (p := isSchemeChar) (l := cs), hd,
          allIriChars_append, allIriChars_cons]
        refine ⟨isIriChar_of_isAlphanum (by simp [Char.isAlphanum, hc]), fun c hc => ?_, by decide,
          hrest⟩
        exact isIriChar_of_isSchemeChar (List.mem_takeWhile_imp hc)
      · cases h
    · cases h

theorem isIri_iff : isIri cs = true ↔ ∃ rest, scheme? cs = some rest ∧ afterScheme rest = .ok () := by
  have hcheck : isIri cs = true ↔ check cs = .ok () := by
    cases h : check cs <;> simp [isIri, h, Except.isOk, Except.toBool]
  rw [hcheck, check.eq_def]
  split
  · next rest =>
    have hnone : scheme? (':' :: rest) = none := by simp [scheme?]
    simp [hnone]
  · split
    · next rest hs => simp [hs]
    · next hs =>
      -- without a scheme a text fails, if not as a relative reference then after it
      simp [hs, bind_eq_ok_iff]

theorem allIriChars_of_isIri (h : isIri cs = true) : AllIriChars cs := by
  obtain ⟨rest, hs, hr⟩ := isIri_iff.1 h
  exact scheme?_eq_some hs (afterScheme_eq_ok hr)

end TabularShapes.Iri
