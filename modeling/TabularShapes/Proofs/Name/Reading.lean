import TabularShapes.Proofs.Compile.Naming
import TabularShapes.Proofs.Name.Writing

/-! Names read again as they are written. Each form of a name is read in the branch it comes from:
angle brackets hold an IRI and nothing else begins with one, an abbreviated name has no slash that
could make it an IRI, and its first colon ends the abbreviation. -/

namespace TabularShapes

theorem Text.mem_of_contains {part cs : List Char} (h : Text.contains part cs = true) {c : Char}
    (hc : c ∈ part) : c ∈ cs := by
  induction cs with
  | nil =>
    obtain rfl : part = [] := List.isEmpty_iff.1 h
    cases hc
  | cons d cs ih =>
    rw [Text.contains, Bool.or_eq_true, List.isPrefixOf_iff_prefix] at h
    rcases h with h | h
    · exact h.subset hc
    · exact List.mem_cons_of_mem d (ih h)

theorem betweenAngles?_append (cs : List Char) :
    betweenAngles? ('<' :: (cs ++ ['>'])) = some cs := by
  simp [betweenAngles?]

theorem betweenAngles?_eq_none {cs : List Char} (h : '<' ∉ cs) : betweenAngles? cs = none := by
  unfold betweenAngles?
  split
  · next rest => exact absurd List.mem_cons_self h
  · rfl

namespace Name

/-- How a name comes to be: as an IRI, from an abbreviation and what follows it, or without an
abbreviation. -/
inductive Built (n : Name) : Prop
  | full {text : String} (h : ofIri text = .ok n)
  | parts {space ending : String} (h : ofParts space ending = .ok n)
  | bare {ending : String} (h : ofLocal ending = .ok n)

/-- A name comes to be in no other way. -/
theorem built (n : Name) : n.Built := by
  cases n with
  | full iri => exact .full (ofIri_text iri)
  | short space ending => exact .parts (ofParts_eq_ok_iff.2 ⟨space, ending, rfl, rfl, rfl⟩)

theorem ofText_written_full (iri : Iri) : ofText (full iri).written = .ok (full iri) := by
  rw [ofText, toList_written_full, betweenAngles?_append]
  dsimp only
  rw [String.ofList_toList, ofIri_text]

theorem ofText_written_short (space : PrefixName) (ending : LocalName) :
    ofText (short space ending).written = .ok (short space ending) := by
  -- neither an angle bracket nor a slash is a character of abbreviated names
  have hnot : ∀ c, isNameChar c = false → c ∉ (short space ending).written.toList := by
    intro c hc hmem
    rw [mem_written_short hmem] at hc
    cases hc
  have hangle := betweenAngles?_eq_none (hnot '<' (by decide))
  have hslash : Text.contains "://".toList (short space ending).written.toList = false := by
    rw [Bool.eq_false_iff]
    intro h
    exact hnot '/' (by decide) (Text.mem_of_contains h (by decide))
  have hcolon : ':' ∉ space.text.toList := fun h => (mem_prefixName space.valid h).2 rfl
  have hcut : Text.cutAt ':' (short space ending).written.toList =
      some (space.text.toList, ending.text.toList) := by
    rw [toList_written_short, Text.cutAt_append _ hcolon]
  simp only [ofText, hangle, hslash, hcut, Bool.false_eq_true, if_false, String.ofList_toList]
  exact ofParts_eq_ok_iff.2 ⟨space, ending, rfl, rfl, rfl⟩

theorem ofText_written (n : Name) : ofText n.written = .ok n := by
  cases n with
  | full iri => exact ofText_written_full iri
  | short space ending => exact ofText_written_short space ending

theorem written_ne_empty (n : Name) : n.written ≠ "" := by
  intro h
  rcases head_written n with ⟨cs, hcs⟩ | hcolon
  · simp [h] at hcs
  · simp [h] at hcolon

theorem read_written (n : Name) : read n.written = .ok n := by
  rw [read, if_neg (written_ne_empty n), ofText_written]
  rfl

theorem parse_written (n : Name) : Compiler.parse n.written = .ok n :=
  Compiler.parse_eq_ok_iff.2 (read_written n)

theorem parse_bind_written (text : String) :
    (Compiler.parse text >>= fun n => Compiler.parse n.written) = Compiler.parse text := by
  cases Compiler.parse text with
  | error e => rfl
  | ok n => exact parse_written n

/-- Reading a name undoes writing it, however the name was built. So names are told apart by their
written forms, and to write a name that was read and to read it again changes nothing. -/
theorem parse_undoes_written :
    (∀ n : Name, n.Built ∧ Compiler.parse n.written = .ok n) ∧
    Function.Injective written ∧
    ∀ text, (Compiler.parse text >>= fun n => Compiler.parse n.written) = Compiler.parse text := by
  refine ⟨fun n => ⟨n.built, parse_written n⟩, ?_, parse_bind_written⟩
  intro n n' h
  have hparse := congrArg Compiler.parse h
  rw [parse_written, parse_written] at hparse
  exact Except.ok.inj hparse

/-- Colons after the first belong to what follows the abbreviation. -/
example : (Compiler.parse "a:b::c").map written = .ok "a:b::c" := by
  decide +kernel

end Name

end TabularShapes
