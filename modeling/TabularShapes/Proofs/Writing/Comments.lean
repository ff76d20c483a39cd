import TabularShapes.Proofs.Writing.Lines

/-! Labels in comments. Whoever reads the sequences in a comment as the characters that they stand for
has the label back, so that no two labels have the same comment. -/

namespace TabularShapes

/-- What is shown of a piece tells its text, once its role is known. -/
theorem Piece.shown_injective (colours : Bool) (role : Option Role) :
    Function.Injective fun text => (⟨role, text⟩ : Piece).shown colours := by
  intro a b h
  cases colours with
  | false => exact h
  | true =>
    cases role with
    | none => exact h
    | some role => exact (String.append_right_inj _).1 ((String.append_left_inj _).1 h)

namespace Compact

/-- The characters that a comment stands for, read from left to right. A backslash that starts none of
the sequences stands for itself. -/
def unescapeChars : List Char → List Char
  | '\\' :: '\\' :: cs => '\\' :: unescapeChars cs
  | '\\' :: 'n' :: cs => '\n' :: unescapeChars cs
  | '\\' :: 'r' :: cs => '\r' :: unescapeChars cs
  | c :: cs => c :: unescapeChars cs
  | [] => []

def unescape (comment : String) : String := String.ofList (unescapeChars comment.toList)

/-! ### Reading what was written -/

theorem unescapeChars_cons {c : Char} (h : c ≠ '\\') (cs : List Char) :
    unescapeChars (c :: cs) = c :: unescapeChars cs := by
  rw [unescapeChars]
  all_goals simp [h]

/-- What is written for a character is read as that character, whatever follows it. -/
theorem unescapeChars_append (c : Char) (rest : List Char) :
    unescapeChars (escapeChar c ++ rest) = c :: unescapeChars rest := by
  unfold escapeChar
  -- a sequence takes both of its characters, so that no backslash is left for the rest
  split
  · rfl
  · rfl
  · rfl
  · next hbackslash _ _ => exact unescapeChars_cons hbackslash rest

theorem unescapeChars_flatMap (cs : List Char) : unescapeChars (cs.flatMap escapeChar) = cs := by
  induction cs with
  | nil => rfl
  | cons c cs ih => rw [List.flatMap_cons, unescapeChars_append, ih]

theorem unescape_escape (label : String) : unescape (escape label) = label := by
  rw [unescape, toList_escape, unescapeChars_flatMap, String.ofList_toList]

theorem escape_injective : Function.Injective escape :=
  Function.LeftInverse.injective unescape_escape

/-! ### Labels that are kept -/

theorem length_escapeChar (c : Char) : (escapeChar c).length = if isSpecial c then 2 else 1 := by
  cases h : isSpecial c with
  | false =>
    rw [escapeChar_of_not_special h]
    rfl
  | true =>
    simp only [isSpecial, Bool.or_eq_true, beq_iff_eq] at h
    rcases h with (rfl | rfl) | rfl <;> rfl

theorem length_flatMap_escapeChar (cs : List Char) :
    (cs.flatMap escapeChar).length = cs.length + cs.countP isSpecial := by
  induction cs with
  | nil => rfl
  | cons c cs ih =>
    rw [List.flatMap_cons, List.length_append, length_escapeChar, ih, List.length_cons,
      List.countP_cons]
    split <;> omega

theorem escape_eq_self_iff (label : String) :
    escape label = label ↔ ∀ c ∈ label.toList, isSpecial c = false := by
  constructor
  · intro h
    have hlength := length_flatMap_escapeChar label.toList
    rw [← toList_escape, h] at hlength
    have hcount : label.toList.countP isSpecial = 0 := by omega
    simpa using List.countP_eq_zero.1 hcount
  · intro h
    rw [escape, if_neg]
    simpa using h

/-! ### Comments -/

theorem comment_shown (layout : Layout) (margin label : String) :
    (comment { layout with labels := true } margin (some label)).map (Line.shown layout.colours) =
      [margin ++ (⟨some .comment, "# " ++ escape label⟩ : Piece).shown layout.colours ++ "\n"] := by
  cases hcolours : layout.colours <;> simp [comment, Line.shown, Piece.shown, Piece.plain]

theorem comment_shown_injective (layout : Layout) (margin : String) : Function.Injective fun label =>
    (comment { layout with labels := true } margin label).map (Line.shown layout.colours) := by
  intro label label' h
  cases label with
  | none =>
    cases label' with
    | none => rfl
    | some b => cases h
  | some a =>
    cases label' with
    | none => cases h
    | some b =>
      dsimp only at h
      rw [comment_shown, comment_shown, List.singleton_inj, String.append_left_inj,
        String.append_right_inj] at h
      have htext := Piece.shown_injective _ _ h
      rw [escape_injective ((String.append_right_inj _).1 htext)]

/-- What is written for a label holds no line break and is read back as the label. It is the label itself
exactly if nothing in the label is special. So labels are told apart by their comments, with colours and
without. -/
theorem escape_lossless :
    (∀ label, '\n' ∉ (escape label).toList ∧ '\r' ∉ (escape label).toList ∧
      unescape (escape label) = label) ∧
    (∀ label, escape label = label ↔ ∀ c ∈ label.toList, isSpecial c = false) ∧
    Function.Injective escape ∧
    ∀ (layout : Layout) (margin : String), Function.Injective fun label =>
      (comment { layout with labels := true } margin label).map (Line.shown layout.colours) := by
  refine ⟨?_, escape_eq_self_iff, escape_injective, comment_shown_injective⟩
  intro label
  exact ⟨fun h => (mem_escape h).1 rfl, fun h => (mem_escape h).2 rfl, unescape_escape label⟩

/-- A label that looks like a sequence is not the line break that the sequence stands for. -/
example : escape "\\n\n" = "\\\\n\\n" ∧ unescape "\\\\n\\n" = "\\n\n" := by
  decide +kernel

end Compact

end TabularShapes
