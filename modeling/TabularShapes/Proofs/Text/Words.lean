import Mathlib.Data.List.TakeWhile

/-! The words of a text: what stands between gaps, for any choice of the characters that are gaps. -/

namespace TabularShapes.Text

def wordsBy (gap : Char → Bool) (cs : List Char) : List (List Char) :=
  (cs.splitOnP gap).filter (!·.isEmpty)

variable {gap : Char → Bool} {a b cs w : List Char} {c g : Char}

theorem wordsBy_nil : wordsBy gap [] = [] := by simp [wordsBy]

theorem wordsBy_append (hg : gap g = true) (a b : List Char) :
    wordsBy gap (a ++ g :: b) = wordsBy gap a ++ wordsBy gap b := by
  rw [wordsBy, List.splitOnP_append_cons a b hg, List.filter_append]
  rfl

theorem wordsBy_cons (hg : gap g = true) (cs : List Char) :
    wordsBy gap (g :: cs) = wordsBy gap cs := by
  simpa [wordsBy_nil] using wordsBy_append hg [] cs

theorem wordsBy_of_forall (hne : cs ≠ []) (h : ∀ c ∈ cs, gap c = false) :
    wordsBy gap cs = [cs] := by
  rw [wordsBy, List.splitOnP_eq_singleton h]
  simp [hne]

theorem wordsBy_margin (hg : gap g = true) (n : Nat) (cs : List Char) :
    wordsBy gap (List.replicate n g ++ cs) = wordsBy gap cs := by
  induction n with
  | zero => rfl
  | succ n ih => rw [List.replicate_succ, List.cons_append, wordsBy_cons hg, ih]

/-- A word goes up to the next gap. -/
theorem wordsBy_cons_of_not_gap (hc : gap c = false) (cs : List Char) :
    wordsBy gap (c :: cs) =
      (c :: cs.takeWhile (!gap ·)) :: wordsBy gap (cs.dropWhile (!gap ·)) := by
  have hword : wordsBy gap (c :: cs.takeWhile (!gap ·)) = [c :: cs.takeWhile (!gap ·)] := by
    refine wordsBy_of_forall (List.cons_ne_nil _ _) (List.forall_mem_cons.2 ⟨hc, ?_⟩)
    intro d hd
    simpa using List.mem_takeWhile_imp hd
  have hsplit : c :: cs = (c :: cs.takeWhile (!gap ·)) ++ cs.dropWhile (!gap ·) := by
    rw [List.cons_append, List.takeWhile_append_dropWhile]
  rw [hsplit]
  cases hrest : cs.dropWhile (!gap ·) with
  | nil => rw [List.append_nil, hword, wordsBy_nil]
  | cons g rest =>
    have hg : gap g = true := by
      have hhead := List.head?_dropWhile_not (!gap ·) cs
      rw [hrest] at hhead
      simpa using hhead
    rw [wordsBy_append hg, hword, wordsBy_cons hg, List.singleton_append]

theorem wordsBy_cons_cons (hc : gap c = false) (hg : gap g = false) (cs : List Char) :
    wordsBy gap (c :: g :: cs) =
      (c :: g :: cs.takeWhile (!gap ·)) :: (wordsBy gap (g :: cs)).tail := by
  rw [wordsBy_cons_of_not_gap hc, wordsBy_cons_of_not_gap hg, List.takeWhile_cons_of_pos (by simp [hg]),
    List.dropWhile_cons_of_pos (by simp [hg]), List.tail_cons]

theorem mem_of_mem_wordsBy (hw : w ∈ wordsBy gap cs) (hc : c ∈ w) : c ∈ cs := by
  have hpieces : ∀ w ∈ cs.splitOnP gap, ∀ c ∈ w, c ∈ cs := by
    clear hw hc
    induction cs with
    | nil => simp
    | cons d cs ih =>
      intro w hw c hc
      rw [List.splitOnP_cons_eq_if_modifyHead] at hw
      split at hw
      · rcases List.mem_cons.1 hw with rfl | hw
        · cases hc
        · exact List.mem_cons_of_mem _ (ih w hw c hc)
      · cases hsplit : cs.splitOnP gap with
        | nil => exact absurd hsplit (List.splitOnP_ne_nil _ _)
        | cons first rest =>
          rw [hsplit] at hw ih
          rcases List.mem_cons.1 hw with rfl | hw
          · rcases List.mem_cons.1 hc with rfl | hc
            · exact List.mem_cons_self
            · exact List.mem_cons_of_mem _ (ih first List.mem_cons_self c hc)
          · exact List.mem_cons_of_mem _ (ih w (List.mem_cons_of_mem _ hw) c hc)
  exact hpieces w (List.mem_filter.1 hw).1 c hc

end TabularShapes.Text
