import TabularShapes.Proofs.Writing.Words
import TabularShapes.Schema.Check

/-! The lines of a text of the compact syntax. A line declares a namespace, is a comment for a label,
or consists of names of the schema and of signs between spaces; none holds a line break, so that these
are the lines of the text. -/

namespace TabularShapes.Compact

open Text (splitAt)

/-- A character of a sign: signs are punctuation or keywords. -/
def isSignChar (c : Char) : Bool := c.isUpper || " .;*+\x7b\x7d".toList.contains c

/-- A name that is written, perhaps behind an `@`, or a sign. -/
inductive Item (names : List Name) : List Char → Prop
  | name {n : Name} (hn : n ∈ names) : Item names n.written.toList
  | reference {n : Name} (hn : n ∈ names) : Item names ('@' :: n.written.toList)
  | sign {cs : List Char} (hsign : cs.all isSignChar = true) : Item names cs

/-- Items between spaces. -/
inductive Spaced (names : List Name) : List Char → Prop
  | one {cs : List Char} (h : Item names cs) : Spaced names cs
  | append {cs rest : List Char} (h : Item names cs) (hrest : Spaced names rest) :
      Spaced names (cs ++ ' ' :: rest)

variable {names : List Name} {cs : List Char} {layout : Layout} {line : Line}
  {s : Schema} {n : Nat}

theorem Spaced.margin (h : Spaced names cs) (n : Nat) :
    Spaced names (List.replicate n ' ' ++ cs) := by
  induction n with
  | zero => exact h
  | succ n ih =>
    have hnothing : Item names [] := .sign (by simp)
    exact .append hnothing ih

theorem spaced_nil : Spaced names [] := .one (.sign (by simp))

/-- A value is the name that it uses, or a sign. -/
theorem item_value {v : Value} (hv : ∀ n, v.name? = some n → n ∈ names) :
    Item names (value v).text.toList := by
  cases v with
  | datatype n => exact .name (hv n rfl)
  | reference n =>
    have hchars : (value (.reference n)).text.toList = '@' :: n.written.toList := by simp [value]
    rw [hchars]
    exact .reference (hv n rfl)
  | nodeKind k => exact .sign (by cases k <;> decide)
  | any => exact .sign (by decide)

def IsNote (line : Line) : Prop :=
  ∃ n label, line.chars = List.replicate n ' ' ++ '#' :: ' ' :: (escape label).toList

/-- What a line of the shapes is: a comment, if labels are written, or names and signs. -/
def Told (layout : Layout) (names : List Name) (line : Line) : Prop :=
  layout.labels = true ∧ IsNote line ∨ Spaced names line.chars

theorem told_of_mem_comment {label : Option String}
    (h : line ∈ comment layout (String.ofList (List.replicate n ' ')) label) :
    Told layout names line := by
  unfold comment at h
  split at h
  · next label hlabels =>
    rw [List.mem_singleton.1 h]
    exact .inl ⟨hlabels, n, label, by simp [Line.chars, Piece.plain]⟩
  · cases h

theorem Item.append_signs {signs : List Char} (h : Item names cs)
    (hspace : signs = [] ∨ signs.head? = some ' ') (hsign : signs.all isSignChar = true) :
    Spaced names (cs ++ signs) := by
  cases signs with
  | nil => exact (List.append_nil cs).symm ▸ .one h
  | cons c signs =>
    obtain rfl : c = ' ' := by simpa using hspace
    rw [List.all_cons, Bool.and_eq_true] at hsign
    exact .append h (.one (.sign hsign.2))

def signsAfter (c : Cardinality) (last : Bool) : List Char :=
  (cardinality c).flatMap (·.text.toList) ++
    (if last then [] else [Piece.plain " ;"]).flatMap (·.text.toList)

theorem spaced_constraint {k : Constraint} {last : Bool} (hp : k.predicate ∈ names)
    (hv : ∀ n, k.value.name? = some n → n ∈ names)
    (h : line ∈ constraint layout (String.ofList (List.replicate n ' ')) last k) :
    Told layout names line := by
  rcases List.mem_append.1 h with h | h
  · exact told_of_mem_comment h
  · right
    have hline : line.chars = List.replicate n ' ' ++ (k.predicate.written.toList ++
        ' ' :: ((value k.value).text.toList ++ signsAfter k.cardinality last)) := by
      rw [List.mem_singleton.1 h]
      simp [signsAfter, Line.chars, Piece.plain]
    rw [hline]
    refine (Spaced.append (.name hp) ((item_value hv).append_signs ?_ ?_)).margin n
    all_goals
      generalize k.cardinality = c
      cases c <;> cases last <;> decide

theorem spaced_constraints {ks : List Constraint} (hp : ∀ k ∈ ks, k.predicate ∈ names)
    (hv : ∀ k ∈ ks, ∀ n, k.value.name? = some n → n ∈ names)
    (h : line ∈ constraints layout (String.ofList (List.replicate n ' ')) ks) :
    Told layout names line := by
  induction ks with
  | nil => cases h
  | cons k rest ih =>
    obtain ⟨hpk, hprest⟩ := List.forall_mem_cons.1 hp
    obtain ⟨hvk, hvrest⟩ := List.forall_mem_cons.1 hv
    cases rest with
    | nil => exact spaced_constraint hpk hvk h
    | cons k' rest =>
      rcases List.mem_append.1 h with h | h
      · exact spaced_constraint hpk hvk h
      · exact ih hprest hvrest h

theorem spaced_shape {d : Declaration} (hid : d.id ∈ names)
    (hnames : ∀ n ∈ d.names, n ∈ names) (h : line ∈ shape layout d) :
    Told layout names line := by
  have hid := Item.name hid
  rcases List.mem_append.1 h with h | h
  · exact told_of_mem_comment (n := 0) h
  split at h
  · right
    have hline : line.chars = d.id.written.toList ++ [' ', '\x7b', '\x7d'] := by
      rw [List.mem_singleton.1 h]
      simp [Line.chars, Piece.plain]
    rw [hline]
    exact hid.append_signs (.inr rfl) (by decide)
  · rcases List.mem_append.1 h with h | h
    · rcases List.mem_append.1 h with h | h
      · right
        have hline : line.chars = d.id.written.toList ++ [' ', '\x7b'] := by
          rw [List.mem_singleton.1 h]
          simp [Line.chars, Piece.plain]
        rw [hline]
        exact hid.append_signs (.inr rfl) (by decide)
      · refine spaced_constraints (fun k hk => hnames _ ?_) (fun k hk n hn => hnames _ ?_) h
        · exact List.mem_flatMap.2 ⟨k, hk, List.mem_cons_self⟩
        · exact List.mem_flatMap.2 ⟨k, hk, List.mem_cons_of_mem _ (Option.mem_toList.2 hn)⟩
    · right
      rw [List.mem_singleton.1 h]
      exact .one (.sign (by decide))

theorem spaced_shapes {gap : Bool} {ds : List Declaration} (hid : ∀ d ∈ ds, d.id ∈ names)
    (hnames : ∀ d ∈ ds, ∀ n ∈ d.names, n ∈ names) (h : line ∈ shapes layout gap ds) :
    Told layout names line := by
  induction ds generalizing gap with
  | nil => cases h
  | cons d rest ih =>
    obtain ⟨hd, hrest⟩ := List.forall_mem_cons.1 hid
    obtain ⟨hdnames, hrestnames⟩ := List.forall_mem_cons.1 hnames
    rcases List.mem_append.1 h with h | h
    · rcases List.mem_append.1 h with h | h
      · right
        cases gap with
        | false => cases h
        | true =>
          rw [List.mem_singleton.1 h]
          exact spaced_nil
      · exact spaced_shape hd hdnames h
    · exact ih hrest hrestnames h

/-- A line declares a namespace, is a comment, or consists of names of the schema and of signs. -/
theorem mem_lines (h : line ∈ lines layout s) :
    (∃ p ∈ s.prefixes.declarations, line = declaration p) ∨ Told layout s.names line := by
  rcases List.mem_append.1 h with h | h
  · obtain ⟨p, hp, rfl⟩ := List.mem_map.1 h
    exact .inl ⟨p, hp, rfl⟩
  · right
    refine spaced_shapes (fun d hd => ?_) (fun d hd n hn => ?_) h
    · exact List.mem_flatMap.2 ⟨d, hd, List.mem_cons_self⟩
    · exact List.mem_flatMap.2 ⟨d, hd, List.mem_cons_of_mem _ hn⟩

/-! ### Characters of a line -/

theorem not_mem_of_kind {kind : Char → Bool} {c : Char} (h : ∀ d ∈ cs, kind d = true)
    (hc : kind c = false) : c ∉ cs := by
  intro hmem
  rw [h c hmem] at hc
  cases hc

def isLineChar (c : Char) : Bool :=
  Iri.isIriChar c || isNameChar c || isSignChar c || "<>@".toList.contains c

theorem isLineChar_of_isIriChar {c : Char} (h : Iri.isIriChar c = true) : isLineChar c = true := by
  simp [isLineChar, h]

theorem isLineChar_of_isNameChar {c : Char} (h : isNameChar c = true) : isLineChar c = true := by
  simp [isLineChar, h]

theorem isLineChar_written {m : Name} : ∀ c ∈ m.written.toList, isLineChar c = true := by
  intro c hc
  rcases Name.mem_written hc with h | h | rfl | rfl
  · exact isLineChar_of_isIriChar h
  · exact isLineChar_of_isNameChar h
  · decide
  · decide

theorem Item.isLineChar (h : Item names cs) : ∀ c ∈ cs, isLineChar c = true := by
  cases h with
  | name hn => exact isLineChar_written
  | reference hn => exact List.forall_mem_cons.2 ⟨by decide, isLineChar_written⟩
  | sign hsign =>
    intro c hc
    simp [Compact.isLineChar, List.all_eq_true.1 hsign c hc]

theorem Spaced.isLineChar (h : Spaced names cs) : ∀ c ∈ cs, isLineChar c = true := by
  induction h with
  | one h => exact h.isLineChar
  | append h _ ih =>
    exact List.forall_mem_append.2 ⟨h.isLineChar, List.forall_mem_cons.2 ⟨by decide, ih⟩⟩

theorem isLineChar_declaration {p : String × String} (hs : isPrefixName p.1.toList = true)
    (hi : isIri p.2.toList = true) : ∀ c ∈ (declaration p).chars, isLineChar c = true := by
  have hchars : (declaration p).chars = "PREFIX ".toList ++ (p.1.toList ++
      (": <".toList ++ (p.2.toList ++ ">".toList))) := by
    simp [declaration, Line.chars, Piece.plain]
  have hspace : p.1.toList.all isLineChar = true :=
    List.all_eq_true.2 fun c hc => isLineChar_of_isNameChar (mem_prefixName hs hc).1
  have hiri : p.2.toList.all isLineChar = true :=
    List.all_eq_true.2 fun c hc => isLineChar_of_isIriChar (Iri.allIriChars_of_isIri hi c hc)
  rw [← List.all_eq_true, hchars]
  simp only [List.all_append, hspace, hiri]
  decide

theorem isLineChar_of_mem_lines (hj : s.prefixes.Judged) (h : line ∈ lines layout s) :
    layout.labels = true ∧ IsNote line ∨ ∀ c ∈ line.chars, isLineChar c = true := by
  rcases mem_lines h with ⟨p, hp, rfl⟩ | hnote | hspaced
  · obtain ⟨hs, hi⟩ := hj.valid hp
    exact .inr (isLineChar_declaration hs hi)
  · exact .inl hnote
  · exact .inr hspaced.isLineChar

/-! ### Lines of the text -/

theorem mem_escape {label : String} {c : Char} (h : c ∈ (escape label).toList) :
    c ≠ '\n' ∧ c ≠ '\r' := by
  rw [toList_escape] at h
  obtain ⟨d, -, hd⟩ := List.mem_flatMap.1 h
  unfold escapeChar at hd
  split at hd
  · simp at hd
    simp [hd]
  · simp at hd
    rcases hd with rfl | rfl <;> decide
  · simp at hd
    rcases hd with rfl | rfl <;> decide
  · next hbreak hreturn =>
    rw [List.mem_singleton.1 hd]
    exact ⟨hbreak, hreturn⟩

theorem IsNote.no_break (h : IsNote line) {c : Char} (hc : c ∈ line.chars) :
    c ≠ '\n' ∧ c ≠ '\r' := by
  obtain ⟨n, label, hline⟩ := h
  rw [hline] at hc
  rcases List.mem_append.1 hc with hc | hc
  · rw [List.eq_of_mem_replicate hc]
    decide
  · simp only [List.mem_cons] at hc
    rcases hc with rfl | rfl | hc
    · decide
    · decide
    · exact mem_escape hc

/-- No line holds a sign that ends one. -/
theorem no_break_of_mem_lines (hj : s.prefixes.Judged) (h : line ∈ lines layout s) {c : Char}
    (hc : c ∈ line.chars) : c ≠ '\n' ∧ c ≠ '\r' := by
  rcases isLineChar_of_mem_lines hj h with ⟨-, hnote⟩ | hchars
  · exact hnote.no_break hc
  · constructor
    · rintro rfl
      exact not_mem_of_kind hchars (by decide) hc
    · rintro rfl
      exact not_mem_of_kind hchars (by decide) hc

theorem toList_write (hformat : layout.format = .shexC) (hcolours : layout.colours = false) :
    (s.write layout).toList = ((lines layout s).map Line.chars).flatMap (· ++ ['\n']) := by
  simp only [Schema.write, hformat, hcolours, String.toList_join, List.flatMap_map,
    Line.toList_shown]

/-- The lines of the text are the lines that are written, and an empty one after the last. -/
theorem splitAt_write (hj : s.prefixes.Judged) (hformat : layout.format = .shexC)
    (hcolours : layout.colours = false) :
    splitAt '\n' (s.write layout).toList = (lines layout s).map Line.chars ++ [[]] := by
  rw [toList_write hformat hcolours, Text.splitAt_flatMap]
  intro cs hcs hbreak
  obtain ⟨line, hline, rfl⟩ := List.mem_map.1 hcs
  exact (no_break_of_mem_lines hj hline hbreak).1 rfl

end TabularShapes.Compact
