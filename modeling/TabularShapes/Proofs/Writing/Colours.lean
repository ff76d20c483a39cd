import TabularShapes.Proofs.Writing.Compact
import TabularShapes.Proofs.Writing.Lines

/-! Colours are escape sequences around pieces of the text. Where no piece holds an escape character,
a reader who drops the sequences is left with the text without colours. Where one does, this reader
also drops what follows that character, and no text without colours holds one unless it is in a label
or an unchecked namespace. -/

namespace TabularShapes

namespace Text

def escapeSign : Char := '\x1b'

/-- The characters that are left without escape sequences, which go from an escape character to the next
`m`, or to the end. If `inside` says so, the characters start inside of a sequence. -/
def leaveOut (inside : Bool) : List Char → List Char
  | [] => []
  | c :: cs =>
    if inside then leaveOut (c != 'm') cs
    else if c = escapeSign then leaveOut true cs
    else c :: leaveOut false cs

def withoutSequences (text : String) : String := String.ofList (leaveOut false text.toList)

variable {cs rest : List Char} {inside : Bool}

theorem not_mem_leaveOut (cs : List Char) (inside : Bool) : escapeSign ∉ leaveOut inside cs := by
  induction cs generalizing inside with
  | nil => exact List.not_mem_nil
  | cons c cs ih =>
    rw [leaveOut]
    split_ifs with hinside hc
    · exact ih _
    · exact ih _
    · exact List.not_mem_cons_of_ne_of_not_mem (Ne.symm hc) (ih _)

theorem leaveOut_append (h : escapeSign ∉ cs) (rest : List Char) :
    leaveOut false (cs ++ rest) = cs ++ leaveOut false rest := by
  induction cs with
  | nil => rfl
  | cons c cs ih =>
    obtain ⟨hc, hcs⟩ := List.ne_and_not_mem_of_not_mem_cons h
    rw [List.cons_append, leaveOut, if_neg Bool.false_ne_true, if_neg (Ne.symm hc), ih hcs]
    rfl

theorem leaveOut_inside (h : 'm' ∉ cs) (rest : List Char) :
    leaveOut true (cs ++ 'm' :: rest) = leaveOut false rest := by
  induction cs with
  | nil => rfl
  | cons c cs ih =>
    obtain ⟨hc, hcs⟩ := List.ne_and_not_mem_of_not_mem_cons h
    rw [List.cons_append, leaveOut, if_pos rfl, bne_iff_ne.2 (Ne.symm hc), ih hcs]

theorem leaveOut_sequence (h : 'm' ∉ cs) (rest : List Char) :
    leaveOut false (escapeSign :: (cs ++ 'm' :: rest)) = leaveOut false rest := by
  rw [leaveOut, if_neg Bool.false_ne_true, if_pos rfl, leaveOut_inside h]

end Text

open Text (escapeSign leaveOut withoutSequences)

/-! ### Pieces and lines -/

theorem Role.not_mem_colour (r : Role) : 'm' ∉ '[' :: r.colour.toList := by
  cases r <;> decide

theorem Piece.leaveOut_shown {p : Piece} (h : escapeSign ∉ p.text.toList) (rest : List Char) :
    leaveOut false ((p.shown true).toList ++ rest) = p.text.toList ++ leaveOut false rest := by
  obtain ⟨role, text⟩ := p
  cases role with
  | none => exact Text.leaveOut_append h rest
  | some role =>
    have hchars : ((⟨some role, text⟩ : Piece).shown true).toList ++ rest =
        escapeSign :: (('[' :: role.colour.toList) ++ 'm' ::
          (text.toList ++ escapeSign :: (['[', '0'] ++ 'm' :: rest))) := by
      simp [shown, escapeSign]
    rw [hchars, Text.leaveOut_sequence role.not_mem_colour, Text.leaveOut_append h,
      Text.leaveOut_sequence (by decide)]

theorem Line.leaveOut_pieces {line : Line} (h : escapeSign ∉ line.chars) (rest : List Char) :
    leaveOut false (line.flatMap (fun p => (p.shown true).toList) ++ rest) =
      line.chars ++ leaveOut false rest := by
  induction line with
  | nil => rfl
  | cons p line ih =>
    rw [chars, List.flatMap_cons, List.mem_append, not_or] at h
    rw [List.flatMap_cons, List.append_assoc, Piece.leaveOut_shown h.1, ih h.2, chars, chars,
      List.flatMap_cons, List.append_assoc]

theorem Line.leaveOut_shown {line : Line} (h : escapeSign ∉ line.chars) (rest : List Char) :
    leaveOut false ((line.shown true).toList ++ rest) =
      line.chars ++ '\n' :: leaveOut false rest := by
  have hchars : (line.shown true).toList ++ rest =
      line.flatMap (fun p => (p.shown true).toList) ++ '\n' :: rest := by
    simp [shown, String.toList_join, List.flatMap_map]
  have hbreak : escapeSign ∉ ['\n'] := by decide
  rw [hchars, leaveOut_pieces h]
  exact congrArg _ (Text.leaveOut_append hbreak rest)

theorem Line.leaveOut_lines {ls : List Line} (h : ∀ line ∈ ls, escapeSign ∉ line.chars) :
    leaveOut false (ls.flatMap fun l => (l.shown true).toList) =
      ls.flatMap fun l => l.chars ++ ['\n'] := by
  induction ls with
  | nil => rfl
  | cons l ls ih =>
    obtain ⟨hl, hls⟩ := List.forall_mem_cons.1 h
    rw [List.flatMap_cons, leaveOut_shown hl, ih hls]
    simp

namespace Compact

/-! ### The lines do not depend on colours -/

variable {indent : ℕ} {labels : Bool}

theorem constraints_coloured (margin : String) (ks : List Constraint) :
    constraints { indent, labels, colours := true } margin ks =
      constraints { indent, labels } margin ks := by
  induction ks with
  | nil => rfl
  | cons k rest ih =>
    cases rest with
    | nil => rfl
    | cons k' rest =>
      rw [constraints, ih]
      · rfl
      · simp

theorem shape_coloured (d : Declaration) :
    shape { indent, labels, colours := true } d = shape { indent, labels } d := by
  unfold shape
  simp only [constraints_coloured]
  rfl

theorem shapes_coloured (gap : Bool) (ds : List Declaration) :
    shapes { indent, labels, colours := true } gap ds = shapes { indent, labels } gap ds := by
  induction ds generalizing gap with
  | nil => rfl
  | cons d rest ih => rw [shapes, shapes, shape_coloured, ih]

theorem lines_coloured (s : Schema) :
    lines { indent, labels, colours := true } s = lines { indent, labels } s := by
  rw [lines, lines, shapes_coloured]

/-! ### Escape characters of the text -/

theorem no_escape_of_mem_lines {s : Schema} {layout : Layout} {line : Line}
    (hj : s.prefixes.Judged) (hlabels : layout.labels = false) (h : line ∈ lines layout s) :
    escapeSign ∉ line.chars := by
  rcases isLineChar_of_mem_lines hj h with ⟨hnote, -⟩ | hchars
  · rw [hlabels] at hnote
    cases hnote
  · exact not_mem_of_kind hchars (by decide)

/-- Without escape sequences the coloured text is the text without colours if that text holds no escape
character, and only then. It holds none if the namespaces were judged and no labels are written. -/
theorem colours_left_out (s : Schema) (indent : ℕ) (labels : Bool) :
    (withoutSequences (s.write { format := .shexC, indent, labels, colours := true }) =
        s.write { format := .shexC, indent, labels, colours := false } ↔
      escapeSign ∉ (s.write { format := .shexC, indent, labels, colours := false }).toList) ∧
    (s.prefixes.Judged → labels = false →
      escapeSign ∉ (s.write { format := .shexC, indent, labels, colours := false }).toList) := by
  have hplain : (s.write { indent, labels }).toList =
      (lines { indent, labels } s).flatMap fun l => l.chars ++ ['\n'] := by
    rw [toList_write rfl rfl, List.flatMap_map]
  have hcoloured : (s.write { indent, labels, colours := true }).toList =
      (lines { indent, labels } s).flatMap fun l => (l.shown true).toList := by
    simp only [Schema.write, String.toList_join, List.flatMap_map, lines_coloured]
  refine ⟨⟨?_, ?_⟩, ?_⟩
  · intro heq
    -- what is left holds no escape character, whatever it is left of
    rw [← heq, withoutSequences, String.toList_ofList]
    exact Text.not_mem_leaveOut _ _
  · intro hnone
    apply String.toList_injective
    rw [withoutSequences, String.toList_ofList, hcoloured, hplain]
    apply Line.leaveOut_lines
    intro line hline hescape
    apply hnone
    rw [hplain]
    exact List.mem_flatMap.2 ⟨line, hline, List.mem_append_left _ hescape⟩
  · intro hj hlabels hescape
    rw [hplain] at hescape
    obtain ⟨line, hline, hescape⟩ := List.mem_flatMap.1 hescape
    rcases List.mem_append.1 hescape with hescape | hescape
    · exact no_escape_of_mem_lines hj hlabels hline hescape
    · revert hescape
      decide

/-- Without labels nothing is lost with the colours. With them an escape character in a label takes what
follows it along. -/
theorem colours_left_out_of_person : (person (some "A\x1bB") .one).prefixes.Judged ∧
    withoutSequences ((person (some "A\x1bB") .one).write { colours := true }) =
      (person (some "A\x1bB") .one).write {} ∧
    escapeSign ∈ ((person (some "A\x1bB") .one).write { labels := true }).toList ∧
    withoutSequences ((person (some "A\x1bB") .one).write { labels := true, colours := true }) ≠
      (person (some "A\x1bB") .one).write { labels := true } := by
  have hj := judged_person (some "A\x1bB") .one
  have hescape : escapeSign ∈ ((person (some "A\x1bB") .one).write { labels := true }).toList := by
    decide +kernel
  obtain ⟨hplain, hnone⟩ := colours_left_out (person (some "A\x1bB") .one) 2 false
  have hlabels := (colours_left_out (person (some "A\x1bB") .one) 2 true).1
  exact ⟨hj, hplain.2 (hnone hj rfl), hescape, fun heq => hlabels.1 heq hescape⟩

end Compact

end TabularShapes
