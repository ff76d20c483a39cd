/-! Sets of code points given as inclusive ranges in increasing order. Membership stops at the
first range that starts beyond the code point, so a small code point is decided early. -/

namespace TabularShapes.Text

/-- Inclusive ranges of code points, in increasing order. -/
abbrev Spans := List (Nat × Nat)

def Spans.cover : Spans → Nat → Bool
  | [], _ => false
  | (lo, hi) :: rest, n => if n < lo then false else decide (n ≤ hi) || Spans.cover rest n

def Spans.has (spans : Spans) (c : Char) : Bool := spans.cover c.toNat

theorem Spans.exists_of_cover {spans : Spans} {n : Nat} (h : spans.cover n = true) :
    ∃ s ∈ spans, s.1 ≤ n ∧ n ≤ s.2 := by
  induction spans with
  | nil => simp [Spans.cover] at h
  | cons s rest ih =>
    obtain ⟨lo, hi⟩ := s
    simp only [Spans.cover] at h
    split at h
    · contradiction
    · simp only [Bool.or_eq_true, decide_eq_true_eq] at h
      rcases h with h | h
      · exact ⟨(lo, hi), by simp, by omega, h⟩
      · obtain ⟨s, hs, hb⟩ := ih h
        exact ⟨s, List.mem_cons_of_mem _ hs, hb⟩

theorem Spans.cover_of_mem {spans : Spans} {s : Nat × Nat} {n : Nat}
    (hsorted : spans.Pairwise fun s t => s.1 ≤ t.1) (hs : s ∈ spans) (hlo : s.1 ≤ n)
    (hhi : n ≤ s.2) : spans.cover n = true := by
  induction spans with
  | nil => cases hs
  | cons t rest ih =>
    obtain ⟨ht, hrest⟩ := List.pairwise_cons.1 hsorted
    have hstart : t.1 ≤ n := by
      rcases List.mem_cons.1 hs with rfl | hs
      · exact hlo
      · exact Nat.le_trans (ht s hs) hlo
    rw [cover, if_neg (Nat.not_lt.2 hstart), Bool.or_eq_true, decide_eq_true_eq]
    rcases List.mem_cons.1 hs with rfl | hs
    · exact .inl hhi
    · exact .inr (ih hrest hs)

/-- Spans none of which meets a span of the others have no code point in common. -/
theorem Spans.cover_eq_false {a b : Spans} {n : Nat}
    (hapart : ∀ s ∈ a, ∀ t ∈ b, s.2 < t.1 ∨ t.2 < s.1) (h : a.cover n = true) :
    b.cover n = false := by
  rw [Bool.eq_false_iff]
  intro hb
  obtain ⟨s, hs, hslo, hshi⟩ := exists_of_cover h
  obtain ⟨t, ht, htlo, hthi⟩ := exists_of_cover hb
  have hst := hapart s hs t ht
  omega

end TabularShapes.Text
