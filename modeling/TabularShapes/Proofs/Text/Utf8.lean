import TabularShapes.Text.Utf8

/-! Decoding undoes encoding. The first byte of an encoded character tells how many bytes there are,
so that bytes are never taken for a shorter character than the one that they encode. -/

namespace TabularShapes.Text

inductive Encodes (c : Char) : List UInt8 → Prop
  | one {a : UInt8} (ha : a.toNat < 128) (hc : Char.ofNat a.toNat = c) : Encodes c [a]
  | two {a b : UInt8} (ha : 192 ≤ a.toNat ∧ a.toNat < 224) (hb : 128 ≤ b.toNat)
      (hc : pairOf a b = c) : Encodes c [a, b]
  | three {a b d : UInt8} (ha : 224 ≤ a.toNat ∧ a.toNat < 240) (hb : 128 ≤ b.toNat)
      (hd : 128 ≤ d.toNat) (hc : tripleOf a b d = c) : Encodes c [a, b, d]
  | four {a b d e : UInt8} (ha : 240 ≤ a.toNat) (hb : 128 ≤ b.toNat) (hd : 128 ≤ d.toNat)
      (he : 128 ≤ e.toNat) (hc : quadOf a b d e = c) : Encodes c [a, b, d, e]

theorem encodes_utf8EncodeChar (c : Char) : Encodes c (String.utf8EncodeChar c) := by
  have hmax : c.val.toNat < 1114112 := by
    have hv := c.valid
    simp only [UInt32.isValidChar, Nat.isValidChar] at hv
    omega
  have hofNat : ∀ n, n = c.val.toNat → Char.ofNat n = c := by
    rintro n rfl
    exact Char.ofNat_toNat c
  unfold String.utf8EncodeChar
  dsimp only
  generalize c.val.toNat = v at hmax hofNat
  split
  · refine .one ?_ (hofNat _ ?_) <;> rw [UInt8.toNat_ofNat'] <;> omega
  · split
    · refine .two ?_ ?_ (hofNat _ ?_) <;> simp only [UInt8.toNat_ofNat'] <;> omega
    · split
      · refine .three ?_ ?_ ?_ (hofNat _ ?_) <;> simp only [UInt8.toNat_ofNat'] <;> omega
      · refine .four ?_ ?_ ?_ ?_ (hofNat _ ?_) <;> simp only [UInt8.toNat_ofNat'] <;> omega

variable {a b d e : UInt8} {c : Char}

theorem lt_of_encode_one (h : String.utf8EncodeChar c = [a]) : a.toNat < 128 := by
  have hc := encodes_utf8EncodeChar c
  rw [h] at hc
  cases hc with
  | one ha => exact ha

theorem lt_of_encode_two (h : String.utf8EncodeChar c = [a, b]) : a.toNat < 224 := by
  have hc := encodes_utf8EncodeChar c
  rw [h] at hc
  cases hc with
  | two ha => exact ha.2

theorem lt_of_encode_three (h : String.utf8EncodeChar c = [a, b, d]) : a.toNat < 240 := by
  have hc := encodes_utf8EncodeChar c
  rw [h] at hc
  cases hc with
  | three ha => exact ha.2

/-- A character at the start of the bytes is decoded as one. -/
theorem decodeFrom_encodeChar (offset : Nat) (c : Char) (rest : List UInt8) :
    ∃ offset', decodeFrom offset (String.utf8EncodeChar c ++ rest) =
      (decodeFrom offset' rest).map (c :: ·) := by
  have hc := encodes_utf8EncodeChar c
  generalize hbytes : String.utf8EncodeChar c = bytes at hc
  cases hc with
  | one ha hc =>
    refine ⟨offset + 1, ?_⟩
    rw [List.singleton_append, decodeFrom.eq_def]
    dsimp only
    rw [hc, if_pos hbytes]
  | @two a b ha hb hc =>
    refine ⟨offset + 2, ?_⟩
    have hone : String.utf8EncodeChar (Char.ofNat a.toNat) ≠ [a] := fun h => by
      have := lt_of_encode_one h
      omega
    rw [List.cons_append, List.singleton_append, decodeFrom.eq_def]
    dsimp only
    rw [if_neg hone, hc, if_pos hbytes]
  | @three a b d ha hb hd hc =>
    refine ⟨offset + 3, ?_⟩
    have hone : String.utf8EncodeChar (Char.ofNat a.toNat) ≠ [a] := fun h => by
      have := lt_of_encode_one h
      omega
    have htwo : String.utf8EncodeChar (pairOf a b) ≠ [a, b] := fun h => by
      have := lt_of_encode_two h
      omega
    rw [List.cons_append, List.cons_append, List.singleton_append, decodeFrom.eq_def]
    dsimp only
    rw [if_neg hone, if_neg htwo, hc, if_pos hbytes]
  | @four a b d e ha hb hd he hc =>
    refine ⟨offset + 4, ?_⟩
    have hone : String.utf8EncodeChar (Char.ofNat a.toNat) ≠ [a] := fun h => by
      have := lt_of_encode_one h
      omega
    have htwo : String.utf8EncodeChar (pairOf a b) ≠ [a, b] := fun h => by
      have := lt_of_encode_two h
      omega
    have hthree : String.utf8EncodeChar (tripleOf a b d) ≠ [a, b, d] := fun h => by
      have := lt_of_encode_three h
      omega
    rw [List.cons_append, List.cons_append, List.cons_append, List.singleton_append,
      decodeFrom.eq_def]
    dsimp only
    rw [if_neg hone, if_neg htwo, if_neg hthree, hc, if_pos hbytes]

theorem decodeFrom_encode (offset : Nat) (cs : List Char) :
    decodeFrom offset (encode cs) = .ok cs := by
  induction cs generalizing offset with
  | nil => rfl
  | cons c cs ih =>
    obtain ⟨offset', h⟩ := decodeFrom_encodeChar offset c (encode cs)
    show decodeFrom offset (String.utf8EncodeChar c ++ encode cs) = _
    rw [h, ih offset']
    rfl

theorem decode_utf8 (s : String) : decode (utf8 s) = .ok s := by
  rw [decode, utf8, decodeFrom_encode]
  exact congrArg Except.ok s.ofList_toList

/-- A byte below 128 is a whole character. -/
theorem eq_of_mem_encodeChar (h : a ∈ String.utf8EncodeChar c) (ha : a.toNat < 128) :
    String.utf8EncodeChar c = [a] ∧ Char.ofNat a.toNat = c := by
  have hc := encodes_utf8EncodeChar c
  generalize String.utf8EncodeChar c = bytes at h hc
  cases hc with
  | one _ hc =>
    obtain rfl := List.mem_singleton.1 h
    exact ⟨rfl, hc⟩
  | two => simp only [List.mem_cons, List.not_mem_nil, or_false] at h; rcases h with rfl | rfl <;> omega
  | three =>
    simp only [List.mem_cons, List.not_mem_nil, or_false] at h
    rcases h with rfl | rfl | rfl <;> omega
  | four =>
    simp only [List.mem_cons, List.not_mem_nil, or_false] at h
    rcases h with rfl | rfl | rfl | rfl <;> omega

theorem encodeChar_ascii (ha : a.toNat < 128) :
    String.utf8EncodeChar (Char.ofNat a.toNat) = [a] := by
  have hall : ∀ n < 128, String.utf8EncodeChar (Char.ofNat n) = [UInt8.ofNat n] := by decide
  rw [hall _ ha, UInt8.ofNat_toNat]

end TabularShapes.Text
