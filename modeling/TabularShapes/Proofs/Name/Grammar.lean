import TabularShapes.Proofs.Name.Writing

/-! Abbreviated names in the grammar of schema texts. The grammar lists the code points that may stand
in them, and names are accepted by Unicode properties. The two differ in a few letters and numbers,
which the grammar has nowhere, and in the marks, which it does not have at the start: a name that is
accepted is one of the grammar exactly if it holds none of the former and starts with none of the
latter. -/

namespace TabularShapes

open Text (Spans isLetter isLetterOrNumber letterSpans numeralSpans)

namespace Grammar

/-! ### The productions -/

/-- The code points that may stand everywhere (`PN_CHARS_BASE`). -/
def baseSpans : Spans := [
  (0x41, 0x5A), (0x61, 0x7A), (0xC0, 0xD6), (0xD8, 0xF6), (0xF8, 0x2FF), (0x370, 0x37D),
  (0x37F, 0x1FFF), (0x200C, 0x200D), (0x2070, 0x218F), (0x2C00, 0x2FEF), (0x3001, 0xD7FF),
  (0xF900, 0xFDCF), (0xFDF0, 0xFFFD), (0x10000, 0xEFFFF)]

def digitSpans : Spans := [(0x30, 0x39)]

def markSpans : Spans := [(0x300, 0x36F)]

/-- The dot in the middle of a line and the ties, which may not stand at the start. -/
def tieSpans : Spans := [(0xB7, 0xB7), (0x203F, 0x2040)]

/-- A character of a name (`PN_CHARS`). -/
def isPart (c : Char) : Bool :=
  baseSpans.has c || digitSpans.has c || markSpans.has c || tieSpans.has c || c == '_' || c == '-'

/-- A text with a character of the first kind at its start and one of the last kind at its end, unless
the first is all, and characters of the kind in between elsewhere: `first (inner* last)?`. -/
inductive Word (first inner last : Char → Bool) : List Char → Prop
  | single {c : Char} (h : first c = true) : Word first inner last [c]
  | longer {c d : Char} {cs : List Char} (hc : first c = true) (hcs : ∀ x ∈ cs, inner x = true)
      (hd : last d = true) : Word first inner last (c :: (cs ++ [d]))

/-- The abbreviation of a namespace (`PN_PREFIX`), or none. -/
def IsPrefix (cs : List Char) : Prop :=
  cs = [] ∨ Word baseSpans.has (fun c => isPart c || c == '.') isPart cs

def opensLocal (c : Char) : Bool := baseSpans.has c || digitSpans.has c || c == '_' || c == ':'

/-- What follows the colon (`PN_LOCAL`, without escapes), or nothing. -/
def IsLocal (cs : List Char) : Prop :=
  cs = [] ∨ Word opensLocal (fun c => isPart c || c == '.' || c == ':')
    (fun c => isPart c || c == ':') cs

/-- An abbreviated name (`PNAME_NS` or `PNAME_LN`). -/
def IsPrefixedName (cs : List Char) : Prop :=
  ∃ space ending, cs = space ++ ':' :: ending ∧ IsPrefix space ∧ IsLocal ending

/-! ### Where the grammar and the properties differ -/

/-- The letters and numbers that the grammar has nowhere: the ordinal indicators, the micro sign, the
superscripts and fractions next to them, and numbers and letters in circles, brackets or with a full
stop. -/
def foreignSpans : Spans := [
  (0xAA, 0xAA), (0xB2, 0xB3), (0xB5, 0xB5), (0xB9, 0xBA), (0xBC, 0xBE), (0x2460, 0x249B),
  (0x24B6, 0x24FF), (0x2776, 0x2793)]

/-- What a text must be besides being accepted: without foreign characters, and without a mark at its
start. -/
def Regular (cs : List Char) : Prop :=
  (∀ c ∈ cs, foreignSpans.has c = false) ∧ ∀ c ∈ cs.head?, markSpans.has c = false

instance : DecidablePred Regular := fun cs =>
  decidable_of_iff
    ((cs.all fun c => !foreignSpans.has c) = true ∧ (cs.head?.all fun c => !markSpans.has c) = true)
    (by cases cs <;> simp [Regular])

variable {c : Char} {cs rest : List Char}

/-- The ranges in which letters lie. Those of the marks and of what follows them are taken together, as
some letters stand on both sides. -/
def letterRanges : Spans := (0x300, 0x37D) :: (baseSpans ++ foreignSpans)

theorem cases_of_range {n : Nat} (h : ∃ t ∈ letterRanges, t.1 ≤ n ∧ n ≤ t.2) :
    baseSpans.cover n = true ∨ markSpans.cover n = true ∨ foreignSpans.cover n = true := by
  obtain ⟨t, ht, hlo, hhi⟩ := h
  rcases List.mem_cons.1 ht with rfl | ht
  · by_cases hmark : n ≤ 0x36F
    · exact .inr (.inl (Spans.cover_of_mem (by decide) List.mem_cons_self hlo hmark))
    · have hbase : (0x370, 0x37D) ∈ baseSpans := by decide
      exact .inl (Spans.cover_of_mem (by decide) hbase (by dsimp only; omega) hhi)
  · rcases List.mem_append.1 ht with ht | ht
    · exact .inl (Spans.cover_of_mem (by decide) ht hlo hhi)
    · exact .inr (.inr (Spans.cover_of_mem (by decide) ht hlo hhi))

theorem exists_range_of_within {spans ranges : Spans} {n : Nat}
    (hwithin : ∀ s ∈ spans, ∃ t ∈ ranges, t.1 ≤ s.1 ∧ s.2 ≤ t.2) (h : spans.cover n = true) :
    ∃ t ∈ ranges, t.1 ≤ n ∧ n ≤ t.2 := by
  obtain ⟨s, hs, hlo, hhi⟩ := Spans.exists_of_cover h
  obtain ⟨t, ht, hts, hst⟩ := hwithin s hs
  exact ⟨t, ht, hts.trans hlo, hhi.trans hst⟩

theorem cases_of_isLetter (h : isLetter c = true) :
    baseSpans.has c = true ∨ markSpans.has c = true ∨ foreignSpans.has c = true :=
  cases_of_range (exists_range_of_within (by decide +kernel) h)

theorem cases_of_isLetterOrNumber (h : isLetterOrNumber c = true) :
    digitSpans.has c = true ∨
      baseSpans.has c = true ∨ markSpans.has c = true ∨ foreignSpans.has c = true := by
  rcases Bool.or_eq_true_iff.1 h with h | h
  · exact .inr (cases_of_isLetter h)
  · have hwithin : ∀ s ∈ numeralSpans, ∃ t ∈ digitSpans ++ letterRanges,
        t.1 ≤ s.1 ∧ s.2 ≤ t.2 := by decide +kernel
    obtain ⟨t, ht, hlo, hhi⟩ := exists_range_of_within hwithin h
    rcases List.mem_append.1 ht with ht | ht
    · exact .inl (Spans.cover_of_mem (by decide) ht hlo hhi)
    · exact .inr (cases_of_range ⟨t, ht, hlo, hhi⟩)

/-- What the grammar has at every place is neither foreign nor a mark. -/
theorem apart_of_base_or_digit (h : baseSpans.has c = true ∨ digitSpans.has c = true) :
    foreignSpans.has c = false ∧ markSpans.has c = false := by
  rcases h with h | h
  · exact ⟨Spans.cover_eq_false (by decide) h, Spans.cover_eq_false (by decide) h⟩
  · exact ⟨Spans.cover_eq_false (by decide) h, Spans.cover_eq_false (by decide) h⟩

/-! ### Characters of names -/

theorem base_iff (h : isLetter c = true) :
    baseSpans.has c = true ↔ foreignSpans.has c = false ∧ markSpans.has c = false := by
  refine ⟨fun h => apart_of_base_or_digit (.inl h), ?_⟩
  rintro ⟨hforeign, hmark⟩
  rcases cases_of_isLetter h with h | h | h
  · exact h
  · simp [hmark] at h
  · simp [hforeign] at h

theorem opensLocal_iff (h : isLetterOrNumber c = true ∨ c = '_' ∨ c = ':') :
    opensLocal c = true ↔ foreignSpans.has c = false ∧ markSpans.has c = false := by
  constructor
  · intro ho
    simp only [opensLocal, Bool.or_eq_true, beq_iff_eq] at ho
    rcases ho with (ho | rfl) | rfl
    · exact apart_of_base_or_digit ho
    · decide
    · decide
  · rintro ⟨hforeign, hmark⟩
    rcases h with h | rfl | rfl
    · rcases cases_of_isLetterOrNumber h with h | h | h | h
      · simp [opensLocal, h]
      · simp [opensLocal, h]
      · simp [hmark] at h
      · simp [hforeign] at h
    · decide
    · decide

theorem isPart_iff (h : isNameChar c = true) (hdot : c ≠ '.') (hcolon : c ≠ ':') :
    isPart c = true ↔ foreignSpans.has c = false := by
  constructor
  · intro hp
    simp only [isPart, Bool.or_eq_true, beq_iff_eq] at hp
    rcases hp with (((hp | hp) | hp) | rfl) | rfl
    · exact (apart_of_base_or_digit hp).1
    · exact Spans.cover_eq_false (by decide) hp
    · exact Spans.cover_eq_false (by decide) hp
    · decide
    · decide
  · intro hforeign
    simp only [isNameChar, Bool.or_eq_true, beq_iff_eq] at h
    rcases h with (((h | rfl) | rfl) | h) | h
    · rcases cases_of_isLetterOrNumber h with h | h | h | h
      · simp [isPart, h]
      · simp [isPart, h]
      · simp [isPart, h]
      · simp [hforeign] at h
    · decide
    · decide
    · exact absurd h hdot
    · exact absurd h hcolon

theorem isPart_or_dot_iff (h : isNameChar c = true) (hcolon : c ≠ ':') :
    (isPart c || c == '.') = true ↔ foreignSpans.has c = false := by
  by_cases hdot : c = '.'
  · subst hdot
    decide
  · simp [isPart_iff h hdot hcolon, hdot]

theorem isPart_or_colon_iff (h : isNameChar c = true) (hdot : c ≠ '.') :
    (isPart c || c == ':') = true ↔ foreignSpans.has c = false := by
  by_cases hcolon : c = ':'
  · subst hcolon
    decide
  · simp [isPart_iff h hdot hcolon, hcolon]

theorem isPart_or_sign_iff (h : isNameChar c = true) :
    (isPart c || c == '.' || c == ':') = true ↔ foreignSpans.has c = false := by
  by_cases hcolon : c = ':'
  · subst hcolon
    decide
  · simpa [hcolon] using isPart_or_dot_iff h hcolon

/-! ### Words -/

section Words

variable {first inner last : Char → Bool} {d : Char}

theorem word_singleton_iff : Word first inner last [c] ↔ first c = true := by
  refine ⟨fun h => ?_, .single⟩
  generalize hcs : [c] = cs at h
  cases h with
  | single h =>
    cases hcs
    exact h
  | longer hc _ _ => simp at hcs

theorem word_concat_iff : Word first inner last (c :: (cs ++ [d])) ↔
    first c = true ∧ (∀ x ∈ cs, inner x = true) ∧ last d = true := by
  refine ⟨fun h => ?_, fun ⟨hc, hcs, hd⟩ => .longer hc hcs hd⟩
  generalize htext : c :: (cs ++ [d]) = text at h
  cases h with
  | single h => simp at htext
  | longer hc hcs hd =>
    obtain ⟨rfl, htail⟩ := List.cons.inj htext
    obtain ⟨rfl, hlast⟩ := List.append_inj' htail rfl
    cases hlast
    exact ⟨hc, hcs, hd⟩

theorem mem_word (h : Word first inner last cs) (hc : c ∈ cs) :
    first c = true ∨ inner c = true ∨ last c = true := by
  cases h with
  | single h => exact .inl (List.mem_singleton.1 hc ▸ h)
  | longer hfirst hinner hlast =>
    rcases List.mem_cons.1 hc with rfl | hc
    · exact .inl hfirst
    · rcases List.mem_append.1 hc with hc | hc
      · exact .inr (.inl (hinner c hc))
      · exact .inr (.inr (List.mem_singleton.1 hc ▸ hlast))

/-- Where each character is of its kind exactly if it is regular at its place, a text is a word exactly
if it is regular. -/
theorem word_iff
    (hfirst : first c = true ↔ foreignSpans.has c = false ∧ markSpans.has c = false)
    (hinner : ∀ x ∈ rest, inner x = true ↔ foreignSpans.has x = false)
    (hlast : ∀ x ∈ rest.getLast?, last x = true ↔ foreignSpans.has x = false) :
    Word first inner last (c :: rest) ↔ Regular (c :: rest) := by
  have hregular : Regular (c :: rest) ↔ (foreignSpans.has c = false ∧ markSpans.has c = false) ∧
      ∀ x ∈ rest, foreignSpans.has x = false := by
    simp only [Regular, List.forall_mem_cons, List.head?_cons, Option.mem_some_iff, forall_eq']
    exact and_right_comm
  rw [hregular]
  rcases List.eq_nil_or_concat' rest with rfl | ⟨mid, d, rfl⟩
  · simp [word_singleton_iff, hfirst]
  · have hd := hlast d (by simp)
    have hmid : ∀ x ∈ mid, inner x = true ↔ foreignSpans.has x = false :=
      fun x hx => hinner x (List.mem_append_left [d] hx)
    rw [word_concat_iff, hfirst, hd, List.forall_mem_append, List.forall_mem_singleton]
    exact and_congr_right fun _ => and_congr_left fun _ => forall₂_congr hmid

end Words

/-! ### Accepted names -/

theorem ne_dot_of_getLast? (h : ((c :: rest).getLast? != some '.') = true) :
    ∀ x ∈ rest.getLast?, x ≠ '.' := by
  rintro x hx rfl
  rw [List.getLast?_cons, Option.mem_def.1 hx] at h
  cases h

theorem isPrefix_iff (h : isPrefixName cs = true) : IsPrefix cs ↔ Regular cs := by
  cases cs with
  | nil => simp [IsPrefix, Regular]
  | cons c rest =>
    have hchars : ∀ x ∈ rest, isNameChar x = true ∧ x ≠ ':' :=
      fun x hx => mem_prefixName h (List.mem_cons_of_mem c hx)
    simp only [isPrefixName, Bool.and_eq_true] at h
    obtain ⟨⟨hc, -⟩, hend⟩ := h
    rw [IsPrefix, or_iff_right (List.cons_ne_nil c rest)]
    refine word_iff (base_iff hc) (fun x hx => ?_) (fun x hx => ?_)
    · exact isPart_or_dot_iff (hchars x hx).1 (hchars x hx).2
    · obtain ⟨hx', hcolon⟩ := hchars x (List.mem_of_getLast? hx)
      exact isPart_iff hx' (ne_dot_of_getLast? hend x hx) hcolon

theorem isLocal_iff (h : isLocalName cs = true) : IsLocal cs ↔ Regular cs := by
  cases cs with
  | nil => simp [IsLocal, Regular]
  | cons c rest =>
    have hchars : ∀ x ∈ rest, isNameChar x = true :=
      fun x hx => mem_localName h (List.mem_cons_of_mem c hx)
    simp only [isLocalName, Bool.and_eq_true, Bool.or_eq_true, beq_iff_eq, or_assoc] at h
    obtain ⟨⟨hc, -⟩, hend⟩ := h
    rw [IsLocal, or_iff_right (List.cons_ne_nil c rest)]
    refine word_iff (opensLocal_iff hc) (fun x hx => ?_) (fun x hx => ?_)
    · exact isPart_or_sign_iff (hchars x hx)
    · exact isPart_or_colon_iff (hchars x (List.mem_of_getLast? hx)) (ne_dot_of_getLast? hend x hx)

theorem colon_notMem_of_isPrefix (h : IsPrefix cs) : ':' ∉ cs := by
  rcases h with rfl | h
  · exact List.not_mem_nil
  · intro hc
    rcases mem_word h hc with hc | hc | hc
    · exact absurd hc (by decide)
    · exact absurd hc (by decide)
    · exact absurd hc (by decide)

theorem isPrefixedName_iff {space ending : List Char} (hs : isPrefixName space = true)
    (he : isLocalName ending = true) :
    IsPrefixedName (space ++ ':' :: ending) ↔ Regular space ∧ Regular ending := by
  rw [← isPrefix_iff hs, ← isLocal_iff he]
  refine ⟨?_, fun ⟨hp, hl⟩ => ⟨space, ending, rfl, hp, hl⟩⟩
  rintro ⟨space', ending', htext, hp, hl⟩
  have hcolon : ':' ∉ space := fun h => (mem_prefixName hs h).2 rfl
  -- both divisions are at the first colon
  have hcut := congrArg (Text.cutAt ':') htext
  rw [Text.cutAt_append _ hcolon, Text.cutAt_append _ (colon_notMem_of_isPrefix hp)] at hcut
  cases hcut
  exact ⟨hp, hl⟩

/-- An accepted name, and an accepted abbreviation of a namespace, is one of the grammar exactly if it
is regular. -/
theorem accepted_grammatical_iff (space ending : String) :
    (∀ n, Name.ofParts space ending = .ok n →
      (IsPrefix space.toList ↔ Regular space.toList) ∧
      (IsLocal ending.toList ↔ Regular ending.toList) ∧
      (IsPrefixedName n.written.toList ↔ Regular space.toList ∧ Regular ending.toList)) ∧
    ∀ (m m' : PrefixMap) (iri : String), m.insert space iri = (m', .ok ()) →
      (IsPrefix space.toList ↔ Regular space.toList) := by
  refine ⟨?_, fun m m' iri h => isPrefix_iff (PrefixMap.insert_eq_ok_iff.1 h).1⟩
  intro n h
  obtain ⟨s, e, rfl, rfl, rfl⟩ := Name.ofParts_eq_ok_iff.1 h
  rw [Name.toList_written_short]
  exact ⟨isPrefix_iff s.valid, isLocal_iff e.valid, isPrefixedName_iff s.valid e.valid⟩

theorem accepted_grammatical_iff_of_signs :
    ∃ n, Name.ofParts "ex" "a.b-c:1" = .ok n ∧ IsPrefixedName n.written.toList := by
  obtain ⟨n, hn⟩ : ∃ n, Name.ofParts "ex" "a.b-c:1" = .ok n :=
    ⟨.short ⟨"ex", by decide +kernel⟩ ⟨"a.b-c:1", by decide +kernel⟩, by decide +kernel⟩
  obtain ⟨-, -, hiff⟩ := (accepted_grammatical_iff _ _).1 n hn
  exact ⟨n, hn, hiff.2 ⟨by decide +kernel, by decide +kernel⟩⟩

/-- The ordinal indicator is a letter, and is accepted, and the grammar does not have it. -/
theorem ungrammatical_of_ordinal :
    (∃ n, Name.ofLocal "ª" = .ok n ∧ ¬ IsPrefixedName n.written.toList) ∧
    ∃ m, PrefixMap.insert ∅ "ª" "http://h/" = (m, .ok ()) ∧ ¬ IsPrefix "ª".toList := by
  have hregular : ¬ Regular "ª".toList := by decide +kernel
  have hs : isPrefixName "ª".toList = true := by decide +kernel
  have he : isLocalName "ª".toList = true := by decide +kernel
  have hiri : isIri "http://h/".toList = true := by decide +kernel
  refine ⟨⟨.short ⟨"", rfl⟩ ⟨"ª", he⟩, Name.ofParts_eq_ok_iff.2 ⟨_, _, rfl, rfl, rfl⟩, ?_⟩,
    _, PrefixMap.insert_eq_ok_iff.2 ⟨hs, hiri, rfl⟩, ?_⟩
  · rw [Name.toList_written_short, isPrefixedName_iff rfl he]
    exact fun h => hregular h.2
  · rwa [isPrefix_iff hs]

end Grammar

end TabularShapes
