import TabularShapes.Proofs.Name.Writing
import TabularShapes.Proofs.Text.Words
import TabularShapes.Writing.Write

/-! The words of a text in the compact syntax: what stands between spaces and line ends. Names are
words, and so is every sign of the syntax, so that the words of a text are those of its lines and
margins leave no trace. -/

namespace TabularShapes

namespace Text

/-- The characters that keep words apart. -/
def isGap (c : Char) : Bool := c == ' ' || c == '\n'

def words (cs : List Char) : List (List Char) := (cs.splitOnP isGap).filter (!·.isEmpty)

def isWord (cs : List Char) : Bool := !cs.isEmpty && cs.all (!isGap ·)

variable {a b cs : List Char} {g : Char}

theorem words_nil : words [] = [] := wordsBy_nil

theorem words_append (hg : isGap g = true) (a b : List Char) :
    words (a ++ g :: b) = words a ++ words b := wordsBy_append hg a b

theorem words_of_isWord (h : isWord cs = true) : words cs = [cs] := by
  simp only [isWord, Bool.and_eq_true, List.all_eq_true, Bool.not_eq_true'] at h
  exact wordsBy_of_forall (by simpa using h.1) h.2

theorem words_word_append (h : isWord a = true) (hg : isGap g = true) (b : List Char) :
    words (a ++ g :: b) = a :: words b := by
  rw [words_append hg, words_of_isWord h, List.singleton_append]

theorem words_margin (n : Nat) (cs : List Char) :
    words (List.replicate n ' ' ++ cs) = words cs := wordsBy_margin (by decide) n cs

end Text

open Text (isGap isWord words)

theorem isGap_of_kind {kind : Char → Bool} {c : Char} (hspace : kind ' ' = false)
    (hbreak : kind '\n' = false) (h : kind c = true) : isGap c = false := by
  by_contra hg
  simp only [isGap, Bool.not_eq_false, Bool.or_eq_true, beq_iff_eq] at hg
  rcases hg with rfl | rfl
  · rw [hspace] at h
    cases h
  · rw [hbreak] at h
    cases h

theorem isGap_of_isIriChar {c : Char} (h : Iri.isIriChar c = true) : isGap c = false :=
  isGap_of_kind (by decide) (by decide) h

theorem isGap_of_isNameChar {c : Char} (h : isNameChar c = true) : isGap c = false :=
  isGap_of_kind (by decide) (by decide) h

theorem Name.isGap_written {n : Name} {c : Char} (hc : c ∈ n.written.toList) :
    isGap c = false := by
  rcases mem_written hc with h | h | rfl | rfl
  · exact isGap_of_isIriChar h
  · exact isGap_of_isNameChar h
  · decide
  · decide

theorem Name.written_ne_nil (n : Name) : n.written.toList ≠ [] := by
  cases n with
  | full iri => simp [toList_written_full]
  | short space ending => simp [toList_written_short]

theorem Name.isWord_written (n : Name) : isWord n.written.toList = true := by
  simp only [isWord, Bool.and_eq_true, List.all_eq_true, Bool.not_eq_true', List.isEmpty_eq_false_iff]
  exact ⟨n.written_ne_nil, fun c hc => isGap_written hc⟩

def Line.chars (line : Line) : List Char := line.flatMap (·.text.toList)

theorem Line.toList_shown (line : Line) : (line.shown false).toList = line.chars ++ ['\n'] := by
  have hp : ∀ p : Piece, p.shown false = p.text := by
    intro p
    simp [Piece.shown]
  simp only [shown, chars, String.toList_append, String.toList_join, List.flatMap_map, hp]
  rfl

theorem Line.words_lines (ls : List Line) :
    words (ls.flatMap fun l => l.chars ++ ['\n']) = ls.flatMap fun l => words l.chars := by
  induction ls with
  | nil => exact Text.words_nil
  | cons l ls ih =>
    rw [List.flatMap_cons, List.flatMap_cons, List.append_assoc, List.singleton_append,
      Text.words_append (by decide), ih]

namespace Compact

def markerWords (c : Cardinality) : List (List Char) :=
  if c.marker = "" then [] else [c.marker.toList]

def declarationWords (p : String × String) : List (List Char) :=
  ["PREFIX".toList, p.1.toList ++ [':'], '<' :: (p.2.toList ++ ['>'])]

def constraintWords (k : Constraint) : List (List Char) :=
  k.predicate.written.toList :: (value k.value).text.toList :: markerWords k.cardinality

def constraintsWords : List Constraint → List (List Char)
  | [] => [['\x7d']]
  | [k] => constraintWords k ++ [['\x7d']]
  | k :: rest => constraintWords k ++ [';'] :: constraintsWords rest

def shapeWords (d : Declaration) : List (List Char) :=
  d.id.written.toList ::
    if d.isEmpty then [['\x7b', '\x7d']] else ['\x7b'] :: constraintsWords d.constraints

variable {indent : Nat} {margin : String}

theorem words_declaration {p : String × String} (hs : isPrefixName p.1.toList = true)
    (hi : isIri p.2.toList = true) : words (declaration p).chars = declarationWords p := by
  obtain ⟨space, iri⟩ := p
  have hspace : isWord (space.toList ++ [':']) = true := by
    simp only [isWord, Bool.and_eq_true, List.all_eq_true, Bool.not_eq_true']
    refine ⟨by simp, fun c hc => ?_⟩
    rcases List.mem_append.1 hc with hc | hc
    · exact isGap_of_isNameChar (mem_prefixName hs hc).1
    · rw [List.mem_singleton.1 hc]
      decide
  have hiri := (Name.full ⟨iri, hi⟩).isWord_written
  rw [Name.toList_written_full] at hiri
  have hchars : (declaration (space, iri)).chars =
      "PREFIX".toList ++ ' ' :: ((space.toList ++ [':']) ++ ' ' :: '<' :: (iri.toList ++ ['>'])) := by
    simp [declaration, Line.chars, Piece.plain]
  rw [hchars, Text.words_word_append (by decide) (by decide),
    Text.words_word_append hspace (by decide), Text.words_of_isWord hiri]
  rfl

theorem isWord_value (v : Value) : isWord (value v).text.toList = true := by
  cases v with
  | datatype n => exact n.isWord_written
  | reference n =>
    have h := n.isWord_written
    simp only [isWord, Bool.and_eq_true, List.all_eq_true, Bool.not_eq_true'] at h ⊢
    refine ⟨by simp [value], fun c hc => ?_⟩
    rw [value, String.toList_append] at hc
    rcases List.mem_append.1 hc with hc | hc
    · rw [show c = '@' by simpa using hc]
      decide
    · exact h.2 c hc
  | nodeKind k => cases k <;> decide
  | any => decide

/-- A value is followed by the sign of the cardinality and by a semicolon, if they are there. -/
theorem words_value_append (v : Value) (c : Cardinality) (last : Bool) :
    words ((value v).text.toList ++ ((cardinality c).flatMap (·.text.toList) ++
      (if last then [] else [Piece.plain " ;"]).flatMap (·.text.toList))) =
    (value v).text.toList :: (markerWords c ++ if last then [] else [[';']]) := by
  have hv := isWord_value v
  have hw : ∀ tail, words ((value v).text.toList ++ ' ' :: tail) =
      (value v).text.toList :: words tail := Text.words_word_append hv (by decide)
  have hend : words [';'] = [[';']] := Text.words_of_isWord (by decide)
  have hstar : words ['*'] = [['*']] := Text.words_of_isWord (by decide)
  have hplus : words ['+'] = [['+']] := Text.words_of_isWord (by decide)
  have hstarEnd : words ['*', ' ', ';'] = [['*'], [';']] := by decide
  have hplusEnd : words ['+', ' ', ';'] = [['+'], [';']] := by decide
  cases c <;> cases last <;>
    simp [cardinality, markerWords, Cardinality.marker, Piece.plain, Text.words_of_isWord hv, hw,
      hend, hstar, hplus, hstarEnd, hplusEnd]

/-- Without labels a constraint is one line. -/
theorem words_constraint (last : Bool) (k : Constraint) :
    (constraint { indent } (String.ofList (List.replicate indent ' ')) last k).flatMap
        (fun l => words l.chars) =
      constraintWords k ++ if last then [] else [[';']] := by
  have hcomment : ∀ margin, comment { indent } margin k.label = [] := fun _ => rfl
  have hspace : " ".toList = [' '] := rfl
  simp only [constraint, hcomment, List.nil_append, List.flatMap_cons, List.flatMap_nil,
    List.append_nil, Line.chars, Piece.plain, List.flatMap_append, String.toList_ofList,
    Text.words_margin, hspace, List.cons_append]
  rw [Text.words_word_append k.predicate.isWord_written (by decide)]
  exact congrArg _ (words_value_append k.value k.cardinality last)

theorem words_constraints (ks : List Constraint) (hks : ks ≠ []) :
    (constraints { indent } (String.ofList (List.replicate indent ' ')) ks).flatMap
        (fun l => words l.chars) ++ [['\x7d']] = constraintsWords ks := by
  induction ks with
  | nil => exact (hks rfl).elim
  | cons k rest ih =>
    cases rest with
    | nil =>
      rw [constraints, words_constraint, if_pos rfl, List.append_nil]
      rfl
    | cons k' rest =>
      rw [constraints, List.flatMap_append, words_constraint, List.append_assoc,
        ih (List.cons_ne_nil _ _)]
      · simp [constraintsWords]
      · simp

theorem words_shape (d : Declaration) :
    (shape { indent } d).flatMap (fun l => words l.chars) = shapeWords d := by
  have hcomment : comment { indent } "" d.label = [] := rfl
  have hid := d.id.isWord_written
  rw [shape, shapeWords, hcomment, List.nil_append]
  split
  · have hempty : Line.chars [⟨some .shape, d.id.written⟩, .plain " \x7b\x7d"] =
        d.id.written.toList ++ ' ' :: ['\x7b', '\x7d'] := by
      simp [Line.chars, Piece.plain]
    rw [List.flatMap_singleton, hempty, Text.words_word_append hid (by decide),
      Text.words_of_isWord (by decide)]
  · next hd =>
    have hopen : Line.chars [⟨some .shape, d.id.written⟩, .plain " \x7b"] =
        d.id.written.toList ++ ' ' :: ['\x7b'] := by
      simp [Line.chars, Piece.plain]
    have hclose : Line.chars [.plain "\x7d"] = ['\x7d'] := rfl
    have hks : d.constraints ≠ [] := by simpa [Declaration.isEmpty] using hd
    rw [List.flatMap_append, List.flatMap_append, List.flatMap_singleton, List.flatMap_singleton,
      hopen, hclose, Text.words_word_append hid (by decide), Text.words_of_isWord (by decide),
      Text.words_of_isWord (by decide), List.append_assoc, words_constraints _ hks]
    rfl

theorem words_shapes (gap : Bool) (ds : List Declaration) :
    (shapes { indent } gap ds).flatMap (fun l => words l.chars) = ds.flatMap shapeWords := by
  induction ds generalizing gap with
  | nil => rfl
  | cons d rest ih =>
    have hgap : (if gap then [[]] else [] : List Line).flatMap (fun l => words l.chars) = [] := by
      cases gap
      · rfl
      · exact Text.words_nil
    rw [shapes, List.flatMap_append, List.flatMap_append, hgap, words_shape, ih true]
    rfl

theorem words_write {s : Schema} (h : s.prefixes.Judged) :
    words (s.write { indent }).toList =
      s.prefixes.declarations.flatMap declarationWords ++ s.declarations.flatMap shapeWords := by
  have hlines : (s.write { indent }).toList =
      (lines { indent } s).flatMap fun l => l.chars ++ ['\n'] := by
    simp only [Schema.write, String.toList_join, List.flatMap_map, Line.toList_shown]
  have hdecl : (s.prefixes.declarations.map declaration).flatMap (fun l => words l.chars) =
      s.prefixes.declarations.flatMap declarationWords := by
    rw [List.flatMap_map]
    refine List.flatMap_congr fun p hp => ?_
    obtain ⟨hs, hi⟩ := h.valid hp
    exact words_declaration hs hi
  rw [hlines, Line.words_lines, lines, List.flatMap_append, hdecl, words_shapes]

end Compact

end TabularShapes
