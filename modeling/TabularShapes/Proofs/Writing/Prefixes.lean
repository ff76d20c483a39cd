import TabularShapes.Proofs.Compile.Result
import TabularShapes.Proofs.Writing.Lines
import TabularShapes.Text.Blank

/-! The abbreviations in a text of the compact syntax. Apart from declarations and comments a line
consists of names and of signs between spaces, so that the abbreviations of the words of the text are
those of names of the schema, and these are declared at the start of the text. -/

namespace TabularShapes

namespace Text

variable {c : Char}

def spaces : List Char := [' ', '\t', '\r', '\n']

def isSpace (c : Char) : Bool := spaces.contains c

theorem not_isSpace_of_kind {kind : Char → Bool} (hkind : spaces.any kind = false)
    (hc : kind c = true) : isSpace c = false := by
  rw [Bool.eq_false_iff]
  intro h
  have hmem : c ∈ spaces := List.contains_iff_mem.1 h
  exact List.any_eq_false.1 hkind c hmem hc

theorem isLetterOrNumber_of_isBlank (h : isBlank c = true) : isLetterOrNumber c = false := by
  have hletter : isLetter c = false := Spans.cover_eq_false (by decide +kernel) h
  have hnumeral : numeralSpans.has c = false := Spans.cover_eq_false (by decide +kernel) h
  rw [isLetterOrNumber, hletter, hnumeral, Bool.or_self]

end Text

namespace Compact

open Text (cutAt isBlank isSpace splitAt wordsBy)

/-! ### What is seen of a text -/

def isDeclaration (line : List Char) : Bool := "PREFIX ".toList.isPrefixOf line

def isComment (line : List Char) : Bool := (line.dropWhile isBlank).head? == some '#'

/-- The abbreviation that a line declares, if it declares a namespace. -/
def declared? (line : List Char) : Option (List Char) :=
  if isDeclaration line then (cutAt ':' (line.drop 7)).map (·.1) else none

def declaredIn (text : String) : List (List Char) := (splitAt '\n' text.toList).filterMap declared?

/-- The abbreviation that a word uses: what stands before its first colon, after any `@` at its start,
unless an angle bracket stands there. -/
def used? (word : List Char) : Option (List Char) :=
  let name := word.dropWhile (· == '@')
  if name.head? = some '<' then none else (cutAt ':' name).map (·.1)

variable {gap : Char → Bool} {names : List Name} {cs w space : List Char} {line : Line}
  {layout : Layout} {s : Schema}

theorem isComment_of_isNote (h : IsNote line) : isComment line.chars = true := by
  obtain ⟨n, label, hline⟩ := h
  have hdrop : line.chars.dropWhile isBlank = '#' :: ' ' :: (escape label).toList := by
    rw [hline, List.dropWhile_append_of_pos]
    · rfl
    · intro c hc
      rw [List.eq_of_mem_replicate hc]
      decide
  rw [isComment, hdrop]
  rfl

theorem chars_declaration (p : String × String) :
    (declaration p).chars =
      "PREFIX ".toList ++ (p.1.toList ++ ':' :: ' ' :: '<' :: (p.2.toList ++ ['>'])) := by
  simp [declaration, Line.chars, Piece.plain]

theorem isDeclaration_declaration (p : String × String) :
    isDeclaration (declaration p).chars = true := by
  rw [chars_declaration, isDeclaration, List.isPrefixOf_iff_prefix]
  exact List.prefix_append _ _

theorem declared?_declaration {p : String × String} (hs : isPrefixName p.1.toList = true) :
    declared? (declaration p).chars = some p.1.toList := by
  have hcolon : ':' ∉ p.1.toList := fun h => (mem_prefixName hs h).2 rfl
  have hdrop : (declaration p).chars.drop 7 =
      p.1.toList ++ ':' :: ' ' :: '<' :: (p.2.toList ++ ['>']) := by
    rw [chars_declaration]
    rfl
  rw [declared?, if_pos (isDeclaration_declaration p), hdrop, Text.cutAt_append _ hcolon]
  rfl

theorem mem_declaredIn (hj : s.prefixes.Judged) (hformat : layout.format = .shexC)
    (hcolours : layout.colours = false) {p : PrefixName} (h : s.prefixes.declares p.text = true) :
    p.text.toList ∈ declaredIn (s.write layout) := by
  obtain ⟨iri, hget⟩ := Option.isSome_iff_exists.1 h
  have hmem := PrefixMap.mem_of_get? hget
  rw [declaredIn, splitAt_write hj hformat hcolours]
  refine List.mem_filterMap.2 ⟨(declaration (p.text, iri)).chars, ?_, declared?_declaration p.valid⟩
  refine List.mem_append_left _ (List.mem_map_of_mem (List.mem_append_left _ ?_))
  exact List.mem_map_of_mem hmem

/-! ### The words of a line -/

/-- Gaps that keep the words of a line apart: a space is one, and nothing in an abbreviated name is,
nor the sign at the start of a reference or of an IRI. -/
structure Separates (gap : Char → Bool) : Prop where
  space : gap ' ' = true
  name : ∀ c, isNameChar c = true → gap c = false
  reference : gap '@' = false
  angle : gap '<' = false

theorem separates_isSpace : Separates isSpace where
  space := by decide
  name _ := Text.not_isSpace_of_kind (by decide)
  reference := by decide
  angle := by decide

theorem separates_isBlank : Separates isBlank where
  space := by decide
  name := by
    intro c hc
    rw [Bool.eq_false_iff]
    intro h
    simp only [isNameChar, Text.isLetterOrNumber_of_isBlank h, Bool.false_or, Bool.or_eq_true,
      beq_iff_eq] at hc
    rcases hc with ((rfl | rfl) | rfl) | rfl <;> revert h <;> decide
  reference := by decide
  angle := by decide

theorem used?_angle (cs : List Char) : used? ('<' :: cs) = none := rfl

theorem used?_reference (cs : List Char) : used? ('@' :: cs) = used? cs := rfl

theorem used?_eq_none (h : ':' ∉ w) : used? w = none := by
  have hcut : cutAt ':' (w.dropWhile (· == '@')) = none :=
    Text.cutAt_eq_none_iff.2 fun hc => h ((List.dropWhile_sublist _).subset hc)
  simp [used?, hcut]

theorem used?_short (p : PrefixName) (ending : LocalName) :
    used? (Name.short p ending).written.toList = some p.text.toList := by
  have hcolon : ':' ∉ p.text.toList := fun h => (mem_prefixName p.valid h).2 rfl
  have hhead : ∀ c ∈ (Name.short p ending).written.toList.head?, c ≠ '@' ∧ c ≠ '<' := by
    intro c hc
    have hchar := Name.mem_written_short (List.mem_of_mem_head? hc)
    refine ⟨?_, ?_⟩ <;> rintro rfl <;> revert hchar <;> decide
  have hdrop : (Name.short p ending).written.toList.dropWhile (· == '@') =
      (Name.short p ending).written.toList := by
    cases hw : (Name.short p ending).written.toList with
    | nil => rfl
    | cons c cs =>
      rw [hw] at hhead
      exact List.dropWhile_cons_of_neg (by simpa using (hhead c rfl).1)
  have hangle : (Name.short p ending).written.toList.head? ≠ some '<' := fun h => (hhead _ h).2 rfl
  simp only [used?, hdrop]
  rw [if_neg hangle, Name.toList_written_short, Text.cutAt_append _ hcolon]
  rfl

theorem Spaced.exists_item (hg : gap ' ' = true) (h : Spaced names cs) (hw : w ∈ wordsBy gap cs) :
    ∃ item, Item names item ∧ w ∈ wordsBy gap item := by
  induction h with
  | one h => exact ⟨_, h, hw⟩
  | append h _ ih =>
    rw [Text.wordsBy_append hg] at hw
    rcases List.mem_append.1 hw with hw | hw
    · exact ⟨_, h, hw⟩
    · exact ih hw

/-- A word of an item that uses an abbreviation is that of an abbreviated name, or it follows a gap
in an IRI. -/
theorem Item.used (hg : Separates gap) (h : Item names cs) (hw : w ∈ wordsBy gap cs)
    (hu : used? w = some space) :
    (∃ p ending, Name.short p ending ∈ names ∧ p.text.toList = space) ∨
      ∃ iri, Name.full iri ∈ names ∧ w ∈ (wordsBy gap (Name.full iri).written.toList).tail := by
  cases h with
  | @name n hn =>
    cases n with
    | full iri =>
      right
      refine ⟨iri, hn, ?_⟩
      rw [Name.toList_written_full] at hw ⊢
      rw [Text.wordsBy_cons_of_not_gap hg.angle] at hw ⊢
      -- the first word starts with the bracket, and uses nothing
      rcases List.mem_cons.1 hw with rfl | hw
      · rw [used?_angle] at hu
        cases hu
      · exact hw
    | short p ending =>
      left
      have hgap : ∀ c ∈ (Name.short p ending).written.toList, gap c = false :=
        fun c hc => hg.name c (Name.mem_written_short hc)
      rw [Text.wordsBy_of_forall (Name.written_ne_nil _) hgap] at hw
      rw [List.mem_singleton.1 hw, used?_short] at hu
      exact ⟨p, ending, hn, Option.some.inj hu⟩
  | @reference n hn =>
    cases n with
    | full iri =>
      right
      refine ⟨iri, hn, ?_⟩
      rw [Name.toList_written_full] at hw ⊢
      rw [Text.wordsBy_cons_cons hg.reference hg.angle] at hw
      rcases List.mem_cons.1 hw with rfl | hw
      · rw [used?_reference, used?_angle] at hu
        cases hu
      · exact hw
    | short p ending =>
      left
      have hgap : ∀ c ∈ '@' :: (Name.short p ending).written.toList, gap c = false :=
        List.forall_mem_cons.2
          ⟨hg.reference, fun c hc => hg.name c (Name.mem_written_short hc)⟩
      rw [Text.wordsBy_of_forall (List.cons_ne_nil _ _) hgap] at hw
      rw [List.mem_singleton.1 hw, used?_reference, used?_short] at hu
      exact ⟨p, ending, hn, Option.some.inj hu⟩
  | sign hsign =>
    have hcolon : ':' ∉ cs := not_mem_of_kind (List.all_eq_true.1 hsign) (by decide)
    rw [used?_eq_none fun hc => hcolon (Text.mem_of_mem_wordsBy hw hc)] at hu
    cases hu

/-- The characters of an IRI are one word for the compact syntax. -/
theorem tail_wordsBy_isSpace (iri : Iri) :
    (wordsBy isSpace (Name.full iri).written.toList).tail = [] := by
  have hgap : ∀ c ∈ (Name.full iri).written.toList, isSpace c = false := by
    intro c hc
    rw [Name.toList_written_full] at hc
    rcases List.mem_cons.1 hc with rfl | hc
    · decide
    · rcases List.mem_append.1 hc with hc | hc
      · have hchar := Iri.allIriChars_of_isIri iri.valid c hc
        exact Text.not_isSpace_of_kind (by decide) hchar
      · rw [List.mem_singleton.1 hc]
        decide
  rw [Text.wordsBy_of_forall (Name.written_ne_nil _) hgap, List.tail_cons]

end Compact

namespace Compiler

open TabularShapes.Compact
open Text (isBlank isSpace splitAt wordsBy)

variable {c : Compiler} {shapes : List Profile.Shape} {schema : Schema} {ws : List Warning}
  {layout : Layout} {gap : Char → Bool}

/-- What holds of the words of a line, whatever the gaps between them are. -/
theorem declaredIn_or_of_used (hg : Separates gap) (hj : c.prefixes.Judged)
    (h : (c.compile shapes).result = .ok (schema, ws)) (hformat : layout.format = .shexC)
    (hcolours : layout.colours = false) {line : List Char}
    (hline : line ∈ splitAt '\n' (schema.write layout).toList)
    (hdeclaration : isDeclaration line = false) (hcomment : isComment line = false)
    {w space : List Char} (hw : w ∈ wordsBy gap line) (hu : used? w = some space) :
    space ∈ declaredIn (schema.write layout) ∨
      ∃ iri, Name.full iri ∈ schema.names ∧
        w ∈ (wordsBy gap (Name.full iri).written.toList).tail := by
  obtain ⟨hprefixes, hsound⟩ := sound_of_compile h
  rw [← hprefixes] at hj
  have hspaced : Spaced schema.names line := by
    rw [splitAt_write hj hformat hcolours] at hline
    rcases List.mem_append.1 hline with hline | hline
    · obtain ⟨l, hl, rfl⟩ := List.mem_map.1 hline
      rcases mem_lines hl with ⟨p, -, rfl⟩ | ⟨-, hnote⟩ | hspaced
      · rw [isDeclaration_declaration] at hdeclaration
        cases hdeclaration
      · rw [isComment_of_isNote hnote] at hcomment
        cases hcomment
      · exact hspaced
    · rw [List.mem_singleton.1 hline]
      exact spaced_nil
  obtain ⟨item, hitem, hw⟩ := hspaced.exists_item hg.space hw
  refine (hitem.used hg hw hu).imp_left ?_
  rintro ⟨p, ending, hn, rfl⟩
  exact mem_declaredIn hj hformat hcolours (hsound.declared hn p.text ending.text rfl)

/-- Outside declarations and comments, every abbreviation that a word of the text uses is declared in
the text. Where all white space keeps words apart, also that which an IRI may hold, this does not hold
of the words that follow it in an IRI. -/
theorem abbreviations_declared (hj : c.prefixes.Judged)
    (h : (c.compile shapes).result = .ok (schema, ws)) (layout : Layout)
    (hformat : layout.format = .shexC) (hcolours : layout.colours = false) (line : List Char)
    (hline : line ∈ splitAt '\n' (schema.write layout).toList)
    (hdeclaration : isDeclaration line = false) (hcomment : isComment line = false) :
    (∀ w ∈ wordsBy isSpace line, ∀ space, used? w = some space →
      space ∈ declaredIn (schema.write layout)) ∧
    ∀ w ∈ wordsBy isBlank line, ∀ space, used? w = some space →
      space ∈ declaredIn (schema.write layout) ∨
      ∃ iri, Name.full iri ∈ schema.names ∧
        w ∈ (wordsBy isBlank (Name.full iri).written.toList).tail := by
  have hused : ∀ gap, Separates gap → ∀ w ∈ wordsBy gap line, ∀ space, used? w = some space →
      space ∈ declaredIn (schema.write layout) ∨ ∃ iri, Name.full iri ∈ schema.names ∧
        w ∈ (wordsBy gap (Name.full iri).written.toList).tail :=
    fun _ hg _ hw _ =>
      declaredIn_or_of_used hg hj h hformat hcolours hline hdeclaration hcomment hw
  refine ⟨fun w hw space hu => ?_, hused isBlank separates_isBlank⟩
  rcases hused isSpace separates_isSpace w hw space hu with hdeclared | ⟨iri, -, htail⟩
  · exact hdeclared
  · rw [tail_wordsBy_isSpace] at htail
    cases htail

/-- A shape with a property whose IRI holds a no-break space, and with a datatype. -/
def spacious : Profile.Shape :=
  { id := "A", statements := [{ property := "<http://h/a\u00a0b:c>", datatype := some "xsd:date" }] }

def spaciousLine : List Char := "  <http://h/a\u00a0b:c> xsd:date".toList

theorem write_spacious : ((default.compile [spacious]).result.map fun r => r.1.write {}) =
    .ok ("PREFIX : <http://example.org/>\nPREFIX xsd: <http://www.w3.org/2001/XMLSchema#>\n\n" ++
      ":A \x7b\n" ++ String.ofList spaciousLine ++ "\n\x7d\n") := by
  decide +kernel

/-- Of the words between spaces of that line one uses an abbreviation. -/
theorem abbreviations_declared_of_spacious : default.prefixes.Judged ∧
    ∃ schema ws, (default.compile [spacious]).result = .ok (schema, ws) ∧
      spaciousLine ∈ splitAt '\n' (schema.write {}).toList ∧
      wordsBy isSpace spaciousLine = ["<http://h/a\u00a0b:c>".toList, "xsd:date".toList] ∧
      used? "xsd:date".toList = some "xsd".toList ∧
      "xsd".toList ∈ declaredIn (schema.write {}) := by
  obtain ⟨⟨schema, ws⟩, h, hwrite⟩ := map_eq_ok_iff.1 write_spacious
  have hline : spaciousLine ∈ splitAt '\n' (schema.write {}).toList := by
    simp only at hwrite
    rw [hwrite]
    decide +kernel
  have hwords : wordsBy isSpace spaciousLine =
      ["<http://h/a\u00a0b:c>".toList, "xsd:date".toList] := by decide +kernel
  have hused : used? "xsd:date".toList = some "xsd".toList := by decide +kernel
  refine ⟨judged_default, schema, ws, h, hline, hwords, hused, ?_⟩
  have hdeclared := (abbreviations_declared judged_default h {} rfl rfl spaciousLine hline
    (by decide +kernel) (by decide +kernel)).1
  exact hdeclared _ (by simp [hwords]) _ hused

/-- The last of the words that the no-break space makes uses an abbreviation that is not declared. -/
theorem abbreviation_undeclared_of_spacious : default.prefixes.Judged ∧
    ∃ schema ws, (default.compile [spacious]).result = .ok (schema, ws) ∧
      ∃ line ∈ splitAt '\n' (schema.write {}).toList, isDeclaration line = false ∧
        isComment line = false ∧ ∃ w ∈ wordsBy isBlank line, used? w = some "b".toList ∧
          "b".toList ∉ declaredIn (schema.write {}) := by
  refine ⟨judged_default, ?_⟩
  obtain ⟨⟨schema, ws⟩, h, hwrite⟩ := map_eq_ok_iff.1 write_spacious
  refine ⟨schema, ws, h, spaciousLine, ?_⟩
  simp only at hwrite
  rw [hwrite]
  refine ⟨?_, ?_, ?_, "b:c>".toList, ?_⟩
  all_goals decide +kernel

end Compiler

end TabularShapes
