import TabularShapes.Proofs.Writing.Compact
import TabularShapes.Proofs.Writing.Lines
import Mathlib.Data.List.SplitBy

/-! Labels stay in their comments. The text with labels has the lines of the text without them and one
comment for each label, whatever the labels hold, so that a reader who drops the lines that start with
a number sign is left with the text without labels. -/

namespace TabularShapes

namespace Text

def isBreak (c : Char) : Bool := c == '\n' || c == '\r'

def lines (text : String) : List (List Char) := text.toList.splitBy fun c _ => !isBreak c

def opensWithHash (line : List Char) : Bool := (line.dropWhile (· == ' ')).head? == some '#'

def withoutNotes (text : String) : String :=
  String.ofList ((lines text).filter (!opensWithHash ·)).flatten

variable {cs rest : List Char} {c : Char}

theorem isChain_line (h : ∀ c ∈ cs, isBreak c = false) :
    (cs ++ ['\n']).IsChain fun c _ => (!isBreak c) = true := by
  induction cs with
  | nil => exact List.isChain_singleton _
  | cons c cs ih =>
    obtain ⟨hc, hcs⟩ := List.forall_mem_cons.1 h
    rw [List.cons_append, List.isChain_cons]
    exact ⟨fun _ _ => by simp [hc], ih hcs⟩

theorem splitBy_lines {ls : List (List Char)} (h : ∀ cs ∈ ls, ∀ c ∈ cs, isBreak c = false) :
    (ls.flatMap (· ++ ['\n'])).splitBy (fun c _ => !isBreak c) = ls.map (· ++ ['\n']) := by
  rw [List.flatMap_def]
  apply List.splitBy_flatten
  · simp
  · intro m hm
    obtain ⟨cs, hcs, rfl⟩ := List.mem_map.1 hm
    exact isChain_line (h cs hcs)
  · apply List.Pairwise.isChain
    rw [List.pairwise_map]
    apply List.pairwise_of_forall
    intro cs rest
    refine ⟨by simp, by simp, ?_⟩
    rw [List.getLast_append_singleton]
    rfl

theorem opensWithHash_cons (hspace : c ≠ ' ') (hhash : c ≠ '#') (rest : List Char) :
    opensWithHash (c :: rest) = false := by
  simp [opensWithHash, hspace, hhash]

theorem opensWithHash_of_not_mem (h : '#' ∉ cs) : opensWithHash cs = false := by
  unfold opensWithHash
  rw [beq_eq_false_iff_ne]
  intro hhead
  exact h ((List.dropWhile_sublist _).subset (List.mem_of_head? hhead))

theorem opensWithHash_append (h : opensWithHash cs = false) (hrest : opensWithHash rest = false) :
    opensWithHash (cs ++ ' ' :: rest) = false := by
  unfold opensWithHash at h hrest ⊢
  rw [List.dropWhile_append]
  split_ifs with hempty
  · exact hrest
  · rw [List.head?_append_of_ne_nil]
    · exact h
    · simpa using hempty

/-- The break at the end of a line does not count. -/
theorem opensWithHash_concat (cs : List Char) : opensWithHash (cs ++ ['\n']) = opensWithHash cs := by
  unfold opensWithHash
  rw [List.dropWhile_append]
  split_ifs with hempty
  · rw [List.isEmpty_iff.1 hempty]
    rfl
  · rw [List.head?_append_of_ne_nil]
    simpa using hempty

end Text

namespace Compact

open Text (isBreak opensWithHash)

variable {names : List Name} {cs : List Char} {s : Schema} {line : Line} {layout : Layout}
  {full bare full' bare' : List Line} {n n' : ℕ}

/-! ### Lines with and without comments -/

/-- Lines with some comments among them, and the lines without the comments. -/
inductive Noted : List Line → List Line → ℕ → Prop
  | nil : Noted [] [] 0
  | note {line : Line} {full bare : List Line} {n : ℕ} (hnote : IsNote line)
      (h : Noted full bare n) : Noted (line :: full) bare (n + 1)
  | line {line : Line} {full bare : List Line} {n : ℕ} (h : Noted full bare n) :
      Noted (line :: full) (line :: bare) n

theorem Noted.append (h : Noted full bare n) (h' : Noted full' bare' n') :
    Noted (full ++ full') (bare ++ bare') (n + n') := by
  induction h with
  | nil => simpa using h'
  | note hnote _ ih =>
    rw [Nat.add_right_comm]
    exact .note hnote ih
  | line _ ih => exact .line ih

theorem noted_same (ls : List Line) : Noted ls ls 0 := by
  induction ls with
  | nil => exact .nil
  | cons l ls ih => exact .line ih

theorem noted_comment (layout : Layout) (indent : ℕ) (label : Option String) :
    Noted (comment { layout with labels := true } (String.ofList (List.replicate indent ' ')) label)
      (comment { layout with labels := false } (String.ofList (List.replicate indent ' ')) label)
      (if label.isSome then 1 else 0) := by
  cases label with
  | none => exact .nil
  | some label =>
    have hnote : IsNote [.plain (String.ofList (List.replicate indent ' ')),
        ⟨some .comment, "# " ++ escape label⟩] :=
      ⟨indent, label, by simp [Line.chars, Piece.plain]⟩
    exact .note hnote .nil

theorem noted_constraint (layout : Layout) (indent : ℕ) (last : Bool) (k : Constraint) :
    Noted (constraint { layout with labels := true } (String.ofList (List.replicate indent ' ')) last k)
      (constraint { layout with labels := false } (String.ofList (List.replicate indent ' ')) last k)
      (if k.label.isSome then 1 else 0) :=
  (noted_comment layout indent k.label).append (noted_same _)

theorem noted_constraints (layout : Layout) (indent : ℕ) (ks : List Constraint) :
    Noted (constraints { layout with labels := true } (String.ofList (List.replicate indent ' ')) ks)
      (constraints { layout with labels := false } (String.ofList (List.replicate indent ' ')) ks)
      (ks.countP (·.label.isSome)) := by
  induction ks with
  | nil => exact .nil
  | cons k rest ih =>
    rw [List.countP_cons]
    cases rest with
    | nil =>
      rw [List.countP_nil, Nat.zero_add]
      exact noted_constraint layout indent true k
    | cons k' rest =>
      rw [Nat.add_comm]
      exact (noted_constraint layout indent false k).append ih

theorem noted_shape (layout : Layout) (d : Declaration) :
    Noted (shape { layout with labels := true } d) (shape { layout with labels := false } d)
      ((if d.label.isSome then 1 else 0) + d.constraints.countP (·.label.isSome)) := by
  unfold shape
  apply (noted_comment layout 0 d.label).append
  split_ifs with hempty
  · rw [List.isEmpty_iff.1 hempty, List.countP_nil]
    exact noted_same _
  · have hks := noted_constraints layout layout.indent d.constraints
    have hopened := (noted_same [[⟨some .shape, d.id.written⟩, .plain " \x7b"]]).append hks
    have hclosed := hopened.append (noted_same [[.plain "\x7d"]])
    rwa [Nat.zero_add, Nat.add_zero] at hclosed

theorem noted_shapes (layout : Layout) (gap : Bool) (ds : List Declaration) :
    Noted (shapes { layout with labels := true } gap ds) (shapes { layout with labels := false } gap ds)
      (ds.countP (·.label.isSome) + (ds.flatMap (·.constraints)).countP (·.label.isSome)) := by
  induction ds generalizing gap with
  | nil => exact .nil
  | cons d rest ih =>
    have hgap := (noted_same (if gap then [[]] else [])).append (noted_shape layout d)
    have hrest := hgap.append (ih true)
    rw [List.countP_cons, List.flatMap_cons, List.countP_append, Nat.add_comm (rest.countP _)]
    rwa [Nat.zero_add, Nat.add_add_add_comm] at hrest

theorem noted_lines (layout : Layout) (s : Schema) :
    Noted (lines { layout with labels := true } s) (lines { layout with labels := false } s)
      (s.declarations.countP (·.label.isSome) +
        (s.declarations.flatMap (·.constraints)).countP (·.label.isSome)) := by
  have h := (noted_same (s.prefixes.declarations.map declaration)).append
    (noted_shapes layout (!s.prefixes.isEmpty) s.declarations)
  rwa [Nat.zero_add] at h

/-! ### The start of a line -/

theorem opensWithHash_of_isNote (h : IsNote line) : opensWithHash line.chars = true := by
  obtain ⟨n, label, hline⟩ := h
  unfold opensWithHash
  rw [hline, List.dropWhile_append_of_pos]
  · rfl
  · intro c hc
    rw [List.eq_of_mem_replicate hc]
    rfl

theorem opensWithHash_written (m : Name) : opensWithHash m.written.toList = false := by
  cases m with
  | full iri =>
    rw [Name.toList_written_full]
    exact Text.opensWithHash_cons (by decide) (by decide) _
  | short space ending =>
    apply Text.opensWithHash_of_not_mem
    exact not_mem_of_kind (fun _ => Name.mem_written_short) (by decide)

theorem Item.opensWithHash (h : Item names cs) : Text.opensWithHash cs = false := by
  cases h with
  | name hn => exact opensWithHash_written _
  | reference hn => exact Text.opensWithHash_cons (by decide) (by decide) _
  | sign hsign =>
    apply Text.opensWithHash_of_not_mem
    exact not_mem_of_kind (List.all_eq_true.1 hsign) (by decide)

theorem Spaced.opensWithHash (h : Spaced names cs) : Text.opensWithHash cs = false := by
  induction h with
  | one h => exact h.opensWithHash
  | append h _ ih => exact Text.opensWithHash_append h.opensWithHash ih

theorem opensWithHash_of_mem_lines (hlabels : layout.labels = false) (h : line ∈ lines layout s) :
    opensWithHash line.chars = false := by
  rcases mem_lines h with ⟨p, -, rfl⟩ | ⟨hnote, -⟩ | hspaced
  · exact Text.opensWithHash_cons (by decide) (by decide) _
  · rw [hlabels] at hnote
    cases hnote
  · exact hspaced.opensWithHash

/-! ### Lines of the text -/

theorem Noted.delete (h : Noted full bare n) (hbare : ∀ line ∈ bare, opensWithHash line.chars = false) :
    (full.map fun l => l.chars ++ ['\n']).filter (!opensWithHash ·) =
        bare.map (fun l => l.chars ++ ['\n']) ∧
      (full.map fun l => l.chars ++ ['\n']).countP opensWithHash = n := by
  induction h with
  | nil => exact ⟨rfl, rfl⟩
  | note hnote _ ih =>
    -- a comment is deleted and counted, any other line is neither
    obtain ⟨hfilter, hcount⟩ := ih hbare
    have hhash := opensWithHash_of_isNote hnote
    rw [← Text.opensWithHash_concat] at hhash
    rw [List.map_cons, List.filter_cons_of_neg (by simp [hhash]), List.countP_cons_of_pos hhash]
    exact ⟨hfilter, congrArg (· + 1) hcount⟩
  | line _ ih =>
    obtain ⟨hline, hbare⟩ := List.forall_mem_cons.1 hbare
    obtain ⟨hfilter, hcount⟩ := ih hbare
    rw [← Text.opensWithHash_concat] at hline
    rw [List.map_cons, List.filter_cons_of_pos (by simp [hline]), hfilter,
      List.countP_cons_of_neg (by simp [hline])]
    exact ⟨rfl, hcount⟩

theorem lines_write (hj : s.prefixes.Judged) (hformat : layout.format = .shexC)
    (hcolours : layout.colours = false) :
    Text.lines (s.write layout) = (lines layout s).map fun l => l.chars ++ ['\n'] := by
  rw [Text.lines, toList_write hformat hcolours, Text.splitBy_lines, List.map_map]
  · rfl
  · intro cs hcs c hc
    obtain ⟨line, hline, rfl⟩ := List.mem_map.1 hcs
    simpa [isBreak] using no_break_of_mem_lines hj hline hc

/-- Without the lines that start with a number sign the text with labels is the text without them, and
there is one such line for each label of a shape or a constraint. -/
theorem labels_deleted (hj : s.prefixes.Judged) (indent : ℕ) :
    Text.withoutNotes (s.write { format := .shexC, indent, labels := true, colours := false }) =
        s.write { format := .shexC, indent, labels := false, colours := false } ∧
      (Text.lines (s.write { format := .shexC, indent, labels := true, colours := false })).countP
          opensWithHash =
        s.declarations.countP (·.label.isSome) +
          (s.declarations.flatMap (·.constraints)).countP (·.label.isSome) := by
  obtain ⟨hfilter, hcount⟩ := (noted_lines { indent } s).delete fun _ hline =>
    opensWithHash_of_mem_lines rfl hline
  rw [Text.withoutNotes, lines_write hj rfl rfl, hfilter]
  refine ⟨?_, hcount⟩
  apply String.toList_injective
  rw [String.toList_ofList, toList_write rfl rfl, List.flatMap_def, List.map_map]
  rfl

/-- A label that looks like the end of a shape, another comment and another shape. -/
def wild : String := "A\n\x7d\r # B \\ \"C\"\n:D \x7b\x7d"

/-- The labels of a shape and of one of its properties are on a line each. -/
theorem labels_deleted_of_wild : (person (some wild) .one).prefixes.Judged ∧
    Text.withoutNotes ((person (some wild) .one).write { labels := true }) =
      "PREFIX ex: <http://example.org/>\n\nex:Person \x7b\n  ex:name LITERAL ;\n" ++
        "  <http://example.org/knows> @ex:Person *\n\x7d\n" ∧
    (Text.lines ((person (some wild) .one).write { labels := true })).countP opensWithHash = 2 := by
  have hj := judged_person (some wild) .one
  obtain ⟨hdelete, hcount⟩ := labels_deleted hj 2
  refine ⟨hj, hdelete.trans ?_, hcount⟩
  decide +kernel

end Compact

end TabularShapes
