import TabularShapes.Proofs.Name.Writing

/-! How the parts of an IRI go on. The characters of abbreviated names may stand in every part of an
IRI, the port excepted: a path, a query or a fragment that has been read goes on with any of them. -/

namespace TabularShapes

open Text (Spans isLetter isLetterOrNumber letterSpans numeralSpans)

def alphanumSpans : Spans := [(0x30, 0x39), (0x41, 0x5A), (0x61, 0x7A)]

theorem isPlain_of_isLetterOrNumber {c : Char} (h : isLetterOrNumber c = true) :
    Iri.isPlain c = true := by
  have hwithin : ∀ s ∈ letterSpans ++ numeralSpans,
      ∃ t ∈ alphanumSpans ++ Iri.wideSpans, t.1 ≤ s.1 ∧ s.2 ≤ t.2 := by decide +kernel
  have hspan : ∃ s ∈ letterSpans ++ numeralSpans, s.1 ≤ c.toNat ∧ c.toNat ≤ s.2 := by
    simp only [isLetterOrNumber, isLetter, Spans.has, Bool.or_eq_true] at h
    rcases h with h | h
    · obtain ⟨s, hs, hc⟩ := Spans.exists_of_cover h
      exact ⟨s, List.mem_append_left _ hs, hc⟩
    · obtain ⟨s, hs, hc⟩ := Spans.exists_of_cover h
      exact ⟨s, List.mem_append_right _ hs, hc⟩
  obtain ⟨s, hs, hlo, hhi⟩ := hspan
  obtain ⟨t, ht, hts, hst⟩ := hwithin s hs
  rcases List.mem_append.1 ht with ht | ht
  · have halphanum : c.isAlphanum = true := by
      simp only [alphanumSpans, List.mem_cons, List.not_mem_nil, or_false] at ht
      rw [Iri.isAlphanum_iff]
      rcases ht with rfl | rfl | rfl <;> omega
    simp [Iri.isPlain, Iri.isPlainAscii, halphanum]
  · have hwide : Iri.wideSpans.has c = true :=
      Spans.cover_of_mem (by decide) ht (hts.trans hlo) (hhi.trans hst)
    simp [Iri.isPlain, hwide]

theorem isAuthorityChar_of_isNameChar {c : Char} (h : isNameChar c = true) :
    Iri.isAuthorityChar c = true := by
  simp only [isNameChar, Bool.or_eq_true, beq_iff_eq] at h
  rcases h with (((h | rfl) | rfl) | rfl) | rfl
  · simp [Iri.isAuthorityChar, isPlain_of_isLetterOrNumber h]
  · decide
  · decide
  · decide
  · decide

namespace Iri

variable {cs rest tail : List Char} {c : Char} {allowed stop : Char → Bool}

/-! ### Components -/

def AllAuthorityChars (cs : List Char) : Prop := ∀ c ∈ cs, isAuthorityChar c = true

theorem ne_percent_of_isAuthorityChar (h : isAuthorityChar c = true) : c ≠ '%' := by
  rintro rfl
  revert h
  decide

theorem endsAuthority_of_isAuthorityChar (h : isAuthorityChar c = true) :
    endsAuthority c = false := by
  rw [Bool.eq_false_iff]
  intro he
  simp only [endsAuthority, Bool.or_eq_true, beq_iff_eq] at he
  rcases he with (rfl | rfl) | rfl
  · exact absurd h (by decide)
  · exact absurd h (by decide)
  · exact absurd h (by decide)

theorem isAuthorityChar_of_isAddressChar (h : isAddressChar c = true) :
    isAuthorityChar c = true := by
  simp only [isAddressChar, Bool.or_eq_true] at h
  rcases h with h | h <;> simp [isAuthorityChar, isPlain, h]

theorem isPathChar_of_isAuthorityChar (h : isAuthorityChar c = true) : isPathChar c = true := by
  simp only [isAuthorityChar, Bool.or_eq_true] at h
  rcases h with h | h <;> simp [isPathChar, h]

theorem component_cons (hc : c ≠ '%') : component allowed stop (c :: cs) =
    if stop c then .ok (c :: cs)
    else if allowed c then component allowed stop cs else .error (.codePoint c) := by
  rw [component]
  · rintro a b r h -
    exact hc h
  · exact hc

theorem component_of_forall
    (h : ∀ c ∈ cs, c ≠ '%' ∧ (stop c = true ∨ allowed c = true)) :
    component allowed stop cs = .ok (cs.dropWhile fun c => !stop c) := by
  induction cs with
  | nil => rfl
  | cons c cs ih =>
    obtain ⟨⟨hc, hor⟩, hcs⟩ := List.forall_mem_cons.1 h
    rw [component_cons hc]
    by_cases hs : stop c = true
    · simp [hs]
    · simp [hs, hor.resolve_left hs, ih hcs]

/-- Text after a component is read where the component stopped. -/
theorem component_append (h : component allowed stop cs = .ok rest) (tail : List Char) :
    component allowed stop (cs ++ tail) =
      if rest = [] then component allowed stop tail else .ok (rest ++ tail) := by
  fun_induction component allowed stop cs with
  | case1 =>
    cases h
    simp
  | case2 a b r hab ih =>
    simp only [List.cons_append, component, hab, if_true]
    exact ih h
  | case3 => cases h
  | case4 => cases h
  | case5 c r _ hp hc =>
    cases h
    rw [List.cons_append, component_cons hp]
    simp [hc]
  | case6 c r _ hp hc ha ih =>
    rw [List.cons_append, component_cons hp]
    simp only [hc, ha, if_true]
    exact ih h
  | case7 => cases h

/-- Nothing stops a component that allows authority characters and stops at none of them. -/
theorem component_of_allAuthorityChars (ht : AllAuthorityChars tail)
    (ha : ∀ c, isAuthorityChar c = true → allowed c = true)
    (hs : ∀ c, isAuthorityChar c = true → stop c = false) :
    component allowed stop tail = .ok [] := by
  rw [component_of_forall fun c hc => ⟨ne_percent_of_isAuthorityChar (ht c hc), .inr (ha c (ht c hc))⟩]
  congr 1
  rw [List.dropWhile_eq_nil_iff]
  intro c hc
  simp [hs c (ht c hc)]

/-! ### Paths, queries and fragments go on -/

theorem isFragmentChar_of_isAuthorityChar (h : isAuthorityChar c = true) :
    isFragmentChar c = true := by
  simp [isFragmentChar, isPathChar_of_isAuthorityChar h]

theorem isQueryChar_of_isAuthorityChar (h : isAuthorityChar c = true) : isQueryChar c = true := by
  simp [isQueryChar, isFragmentChar_of_isAuthorityChar h]

/-- What starts a query or a fragment. -/
theorem stops_of_isAuthorityChar (h : isAuthorityChar c = true) : c ≠ '?' ∧ c ≠ '#' := by
  have hends := endsAuthority_of_isAuthorityChar h
  simp only [endsAuthority, Bool.or_eq_false_iff, beq_eq_false_iff_ne] at hends
  exact ⟨hends.1.2, hends.2⟩

theorem fragmentOnward_append (h : fragmentOnward ('#' :: cs) = .ok ())
    (ht : AllAuthorityChars tail) : fragmentOnward ('#' :: cs ++ tail) = .ok () := by
  obtain ⟨rest, hc, -⟩ := map_eq_ok_iff.1 h
  obtain rfl : rest = [] := by
    cases rest with
    | nil => rfl
    | cons c rest => cases (component_eq_ok hc).1
  have htail : component isFragmentChar (fun _ => false) tail = .ok [] :=
    component_of_allAuthorityChars ht (fun _ => isFragmentChar_of_isAuthorityChar) fun _ _ => rfl
  rw [List.cons_append, fragmentOnward, component_append hc, if_pos rfl, htail]
  rfl

theorem queryOnward_append (hs : StopsBefore (fun c => c == '?' || c == '#') (c :: cs))
    (h : queryOnward (c :: cs) = .ok ()) (ht : AllAuthorityChars tail) :
    queryOnward (c :: cs ++ tail) = .ok () := by
  have hc : c = '?' ∨ c = '#' := by simpa [StopsBefore] using hs
  rcases hc with rfl | rfl
  · obtain ⟨rest, hc, hf⟩ := bind_eq_ok_iff.1 h
    have htail : component isQueryChar (· == '#') tail = .ok [] := by
      refine component_of_allAuthorityChars ht (fun _ => isQueryChar_of_isAuthorityChar) ?_
      intro c hc
      simp [(stops_of_isAuthorityChar hc).2]
    rw [List.cons_append, queryOnward, component_append hc]
    cases rest with
    | nil =>
      rw [if_pos rfl, htail]
      rfl
    | cons d rest =>
      obtain rfl : d = '#' := by simpa [StopsBefore] using (component_eq_ok hc).1
      rw [if_neg (by simp)]
      exact fragmentOnward_append hf ht
  · exact fragmentOnward_append h ht

theorem pathOnward_append (h : pathOnward cs = .ok ()) (ht : AllAuthorityChars tail) :
    pathOnward (cs ++ tail) = .ok () := by
  obtain ⟨rest, hc, hq⟩ := bind_eq_ok_iff.1 h
  have htail : component isPathChar (fun c => c == '?' || c == '#') tail = .ok [] := by
    refine component_of_allAuthorityChars ht (fun _ => isPathChar_of_isAuthorityChar) ?_
    intro c hc
    simp [stops_of_isAuthorityChar hc]
  rw [pathOnward, component_append hc]
  cases rest with
  | nil =>
    rw [if_pos rfl, htail]
    rfl
  | cons c rest =>
    rw [if_neg (by simp)]
    exact queryOnward_append (component_eq_ok hc).1 hq ht

end Iri

end TabularShapes
