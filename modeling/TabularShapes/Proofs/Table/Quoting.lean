import TabularShapes.Proofs.Text.Utf8
import TabularShapes.Table.Decoding

/-! Tables written with every field between quotes, and what the scanner makes of them. Inside the
quotes all bytes but the quote stand for themselves, so that no delimiter and no line end of a field
is taken for one of the table. -/

namespace TabularShapes.Table

open Text (encode utf8)

/-- Two different ASCII characters that end no line. -/
structure Dialect.Plain (d : Dialect) : Prop where
  quote_ascii : d.quote.toNat < 128
  delimiter_ascii : d.delimiter.toNat < 128
  distinct : d.quote ≠ d.delimiter
  quote_end : isLineEnd d.quote = false
  delimiter_end : isLineEnd d.delimiter = false

def Dialect.quoteChar (d : Dialect) : Char := Char.ofNat d.quote.toNat

def Dialect.delimiterChar (d : Dialect) : Char := Char.ofNat d.delimiter.toNat

inductive LineEnd
  | lf | crlf | cr
deriving DecidableEq

def LineEnd.chars : LineEnd → List Char
  | lf => ['\n']
  | crlf => ['\r', '\n']
  | cr => ['\r']

/-- A character of a field: quotes are doubled. -/
def doubled (d : Dialect) (c : Char) : List Char := if c = d.quoteChar then [c, c] else [c]

def quoted (d : Dialect) (field : String) : List Char :=
  d.quoteChar :: (field.toList.flatMap (doubled d) ++ [d.quoteChar])

def writeFields (d : Dialect) : List String → List Char
  | [] => []
  | [f] => quoted d f
  | f :: fs => quoted d f ++ d.delimiterChar :: writeFields d fs

/-- The records with their line ends. The last line end is left out unless the table is closed. -/
def writeRecords (d : Dialect) (closed : Bool) : List (List String × LineEnd) → List Char
  | [] => []
  | [(fields, e)] => writeFields d fields ++ if closed then e.chars else []
  | (fields, e) :: rest => writeFields d fields ++ (e.chars ++ writeRecords d closed rest)

namespace Scanner

/-- The bytes lead from one state to another, and no record ends on the way. -/
def Leads (d : Dialect) (s : Scanner) (bytes : List UInt8) (s' : Scanner) : Prop :=
  ∀ ended rest, s.records d ended (bytes ++ rest) = s'.records d ended rest

variable {d : Dialect} {s s' s'' : Scanner} {a b : List UInt8} {byte : UInt8}

theorem Leads.refl : Leads d s [] s := fun _ _ => rfl

theorem Leads.trans (h : Leads d s a s') (h' : Leads d s' b s'') : Leads d s (a ++ b) s'' := by
  intro ended rest
  rw [List.append_assoc, h, h']

theorem Leads.step (h : s.feed d byte = (s', none)) : Leads d s [byte] s' := by
  intro ended rest
  simp only [List.singleton_append, records, h]

theorem leads_push {bytes : List UInt8} (hm : s.mode = .quoted) (hb : ∀ b ∈ bytes, b ≠ d.quote) :
    ∃ here, Leads d s bytes { s with field := bytes.reverse ++ s.field, here } := by
  induction bytes generalizing s with
  | nil => exact ⟨s.here, .refl⟩
  | cons b bytes ih =>
    have hstep : s.feed d b = ({ s with field := b :: s.field, here := s.here.after b }, none) := by
      simp [feed, hm, hb b, push]
    obtain ⟨here, h⟩ := ih (s := { s with field := b :: s.field, here := s.here.after b }) hm
      fun x hx => hb x (List.mem_cons_of_mem _ hx)
    refine ⟨here, ?_⟩
    rw [List.reverse_cons, List.append_assoc]
    exact (Leads.step hstep).trans h

theorem encode_quoteChar (hd : d.Plain) : String.utf8EncodeChar d.quoteChar = [d.quote] :=
  Text.encodeChar_ascii hd.quote_ascii

theorem encode_delimiterChar (hd : d.Plain) :
    String.utf8EncodeChar d.delimiterChar = [d.delimiter] :=
  Text.encodeChar_ascii hd.delimiter_ascii

/-- The bytes of a field between the quotes arrive as they are, with each quote once. -/
theorem leads_doubled (hd : d.Plain) (hm : s.mode = .quoted) (cs : List Char) :
    ∃ here, Leads d s (encode (cs.flatMap (doubled d)))
      { s with field := (encode cs).reverse ++ s.field, here } := by
  induction cs generalizing s with
  | nil => exact ⟨s.here, .refl⟩
  | cons c cs ih =>
    have hchar : ∃ here, Leads d s (encode (doubled d c))
        { s with field := (String.utf8EncodeChar c).reverse ++ s.field, here } := by
      by_cases hc : c = d.quoteChar
      · have hfirst : s.feed d d.quote =
            ({ s with mode := .closed, here := s.here.after d.quote }, none) := by
          simp [feed, hm]
        have hsecond : ∀ here, feed d { s with mode := .closed, here } d.quote =
            ({ s with field := d.quote :: s.field, here := here.after d.quote }, none) := by
          intro here
          simp [feed, push, ← hm]
        refine ⟨(s.here.after d.quote).after d.quote, ?_⟩
        have hbytes : encode (doubled d c) = [d.quote] ++ [d.quote] := by
          simp [encode, doubled, hc, encode_quoteChar hd]
        rw [hbytes, hc, encode_quoteChar hd]
        exact (Leads.step hfirst).trans (Leads.step (hsecond _))
      · have hbytes : encode (doubled d c) = String.utf8EncodeChar c := by
          simp [encode, doubled, hc]
        rw [hbytes]
        refine leads_push hm fun b hb hq => hc ?_
        rw [hq] at hb
        exact (Text.eq_of_mem_encodeChar hb hd.quote_ascii).2.symm
    obtain ⟨here, h⟩ := hchar
    obtain ⟨here', h'⟩ := ih (s := { s with field := (String.utf8EncodeChar c).reverse ++ s.field, here }) hm
    refine ⟨here', ?_⟩
    have hbytes : encode ((c :: cs).flatMap (doubled d)) =
        encode (doubled d c) ++ encode (cs.flatMap (doubled d)) := by
      simp [encode, List.flatMap_append]
    have hfield : (encode (c :: cs)).reverse ++ s.field =
        (encode cs).reverse ++ ((String.utf8EncodeChar c).reverse ++ s.field) := by
      simp [encode]
    rw [hbytes, hfield]
    exact h.trans h'

def AtField (s : Scanner) : Prop := (s.mode = .betweenRecords ∨ s.mode = .fieldStart) ∧ s.field = []

theorem leads_quoted (hd : d.Plain) (hs : s.AtField) (field : String) :
    ∃ here, Leads d s (encode (quoted d field))
      { s with mode := .closed, field := (utf8 field).reverse, here } := by
  obtain ⟨hm, hf⟩ := hs
  have hopen : s.feed d d.quote =
      ({ s with mode := .quoted, here := s.here.after d.quote }, none) := by
    rcases hm with hm | hm <;> simp [feed, hm, hd.quote_end, takeFirst]
  have hclose : ∀ field here, feed d { s with mode := .quoted, field, here } d.quote =
      ({ s with mode := .closed, field, here := here.after d.quote }, none) := by
    intro field here
    simp [feed]
  obtain ⟨here, h⟩ := leads_doubled hd
    (s := { s with mode := .quoted, here := s.here.after d.quote }) rfl field.toList
  refine ⟨here.after d.quote, ?_⟩
  have hbytes : encode (quoted d field) =
      [d.quote] ++ (encode (field.toList.flatMap (doubled d)) ++ [d.quote]) := by
    simp [encode, quoted, encode_quoteChar hd]
  have hfield : (utf8 field).reverse = (encode field.toList).reverse ++ s.field := by
    rw [hf, List.append_nil, utf8]
  rw [hbytes, hfield]
  exact (Leads.step hopen).trans (h.trans (Leads.step (hclose _ _)))

theorem leads_fields (hd : d.Plain) (hs : s.AtField) {fields : List String} (hne : fields ≠ []) :
    ∃ s', Leads d s (encode (writeFields d fields)) s' ∧ s'.mode = .closed ∧
      s'.openRecord.fields = s.fields.reverse ++ fields.map utf8 := by
  induction fields generalizing s with
  | nil => exact (hne rfl).elim
  | cons f fields ih =>
    obtain ⟨here, h⟩ := leads_quoted hd hs f
    cases fields with
    | nil => exact ⟨_, h, rfl, by simp [openRecord]⟩
    | cons f' fields =>
      have hnext : feed d { s with mode := .closed, field := (utf8 f).reverse, here } d.delimiter =
          (⟨.fieldStart, [], utf8 f :: s.fields, s.start, here.after d.delimiter⟩, none) := by
        simp [feed, take, nextField, Ne.symm hd.distinct]
      obtain ⟨s', h', hm, hopen⟩ :=
        ih (s := ⟨.fieldStart, [], utf8 f :: s.fields, s.start, here.after d.delimiter⟩)
          ⟨.inr rfl, rfl⟩ (List.cons_ne_nil _ _)
      refine ⟨s', ?_, hm, by simpa using hopen⟩
      have hbytes : encode (writeFields d (f :: f' :: fields)) =
          encode (quoted d f) ++ ([d.delimiter] ++ encode (writeFields d (f' :: fields))) := by
        simp [encode, writeFields, encode_delimiterChar hd]
      rw [hbytes]
      exact h.trans ((Leads.step hnext).trans h')

def AtRecord (s : Scanner) : Prop := s.mode = .betweenRecords ∧ s.field = [] ∧ s.fields = []

theorem records_lineEnd (hd : d.Plain) (hm : s.mode = .closed) (e : LineEnd) :
    ∃ s' : Scanner, s'.AtRecord ∧ ∃ r, r.fields = s.openRecord.fields ∧ ∀ ended rest,
      s.records d ended (encode e.chars ++ rest) = r :: s'.records d ended rest := by
  have hend : ∀ b, isLineEnd b = true →
      s.feed d b = ({ s with here := s.here.after b } : Scanner).endRecord := by
    intro b hb
    have hq : b ≠ d.quote := by
      rintro rfl
      rw [hd.quote_end] at hb
      cases hb
    have hdel : b ≠ d.delimiter := by
      rintro rfl
      rw [hd.delimiter_end] at hb
      cases hb
    simp [feed, hm, hq, take, hdel, hb]
  have hone : ∀ b, isLineEnd b = true → ∃ s' : Scanner, s'.AtRecord ∧
      ∃ r, r.fields = s.openRecord.fields ∧
        ∀ ended rest, s.records d ended ([b] ++ rest) = r :: s'.records d ended rest := by
    intro b hb
    refine ⟨({ s with here := s.here.after b } : Scanner).endRecord.1, ⟨rfl, rfl, rfl⟩,
      s.openRecord, rfl, fun ended rest => ?_⟩
    rw [List.singleton_append, records, hend b hb]
    rfl
  cases e with
  | lf => exact hone 0x0A rfl
  | cr => exact hone 0x0D rfl
  | crlf =>
    -- the carriage return ends the record, and the line feed after it is skipped
    obtain ⟨s', hs', r, hr, h⟩ := hone 0x0D rfl
    have hskip : s'.feed d 0x0A = ({ s' with here := s'.here.after 0x0A }, none) := by
      simp [feed, hs'.1, isLineEnd]
    refine ⟨{ s' with here := s'.here.after 0x0A }, hs', r, hr, fun ended rest => ?_⟩
    have hbytes : encode LineEnd.crlf.chars ++ rest = [0x0D] ++ ([0x0A] ++ rest) := rfl
    rw [hbytes, h, Leads.step hskip]

theorem fields_records (hd : d.Plain) (closed : Bool) (hs : s.AtRecord)
    {rs : List (List String × LineEnd)} (hne : ∀ r ∈ rs, r.1 ≠ []) :
    (s.records d true (encode (writeRecords d closed rs))).map (·.fields) =
      rs.map fun r => r.1.map utf8 := by
  induction rs generalizing s with
  | nil => simp [writeRecords, encode, records, finish?, hs.1]
  | cons r rs ih =>
    obtain ⟨fields, e⟩ := r
    obtain ⟨hm, hf, hfs⟩ := hs
    obtain ⟨s₁, h₁, hm₁, hopen⟩ := leads_fields hd ⟨.inl hm, hf⟩ (hne (fields, e) List.mem_cons_self)
    rw [hfs, List.reverse_nil, List.nil_append] at hopen
    obtain ⟨s₂, hs₂, r, hr, h₂⟩ := records_lineEnd hd hm₁ e
    have hrest := ih hs₂ fun r hr => hne r (List.mem_cons_of_mem _ hr)
    have hsplit : ∀ cs, s.records d true (encode (writeFields d fields ++ cs)) =
        s₁.records d true (encode cs) := by
      intro cs
      rw [encode, List.flatMap_append]
      exact h₁ true _
    have hline : ∀ cs, s₁.records d true (encode (e.chars ++ cs)) =
        r :: s₂.records d true (encode cs) := by
      intro cs
      rw [encode, List.flatMap_append]
      exact h₂ true _
    cases rs with
    | nil =>
      rw [writeRecords, hsplit]
      cases closed with
      | true =>
        rw [if_pos rfl, ← List.append_nil e.chars, hline, List.map_cons, hr, hopen]
        exact congrArg _ hrest
      | false => simp [encode, records, finish?, hm₁, hopen]
    | cons r' rs =>
      have hwritten : writeRecords d closed ((fields, e) :: r' :: rs) =
          writeFields d fields ++ (e.chars ++ writeRecords d closed (r' :: rs)) := rfl
      rw [hwritten, hsplit, hline, List.map_cons, hr, hopen, hrest]
      rfl

end Scanner

/-- A table that starts with a quote has no byte order mark. -/
theorem start_of_quote {d : Dialect} (hd : d.Plain) (bytes : List UInt8) :
    start (d.quote :: bytes) = (Scanner.initial, d.quote :: bytes) := by
  have hq : d.quote ≠ 0xEF := by
    intro h
    have := hd.quote_ascii
    rw [h] at this
    exact absurd this (by decide)
  rw [start.eq_def]
  split
  · next h => exact (hq (List.cons.inj h).1).elim
  · rfl

theorem start_writeRecords {d : Dialect} (hd : d.Plain) (closed : Bool)
    {rs : List (List String × LineEnd)} (hne : ∀ r ∈ rs, r.1 ≠ []) :
    start (encode (writeRecords d closed rs)) =
      (Scanner.initial, encode (writeRecords d closed rs)) := by
  cases rs with
  | nil => rfl
  | cons r rs =>
    obtain ⟨fields, e⟩ := r
    have hfields : ∃ cs, writeFields d fields = d.quoteChar :: cs := by
      cases fields with
      | nil => exact (hne ([], e) List.mem_cons_self rfl).elim
      | cons f fields => cases fields <;> exact ⟨_, rfl⟩
    obtain ⟨cs, hcs⟩ := hfields
    have hrecords : ∃ cs', writeRecords d closed ((fields, e) :: rs) = d.quoteChar :: cs' := by
      cases rs <;> simp only [writeRecords, hcs, List.cons_append] <;> exact ⟨_, rfl⟩
    obtain ⟨cs', hcs'⟩ := hrecords
    have hbytes : encode (writeRecords d closed ((fields, e) :: rs)) = d.quote :: encode cs' := by
      rw [hcs', encode, List.flatMap_cons, Scanner.encode_quoteChar hd]
      rfl
    rw [hbytes, start_of_quote hd]

theorem fields_of_writeRecords {d : Dialect} (hd : d.Plain) (closed : Bool)
    {rs : List (List String × LineEnd)} (hne : ∀ r ∈ rs, r.1 ≠ []) :
    (records d { bytes := encode (writeRecords d closed rs) }).map (·.fields) =
      rs.map fun r => r.1.map utf8 := by
  rw [records, start_writeRecords hd closed hne]
  simp only [Source.failureMet_bytes]
  exact Scanner.fields_records hd closed ⟨rfl, rfl, rfl⟩ hne

theorem decodeFields_utf8 (start : Position) (before : Nat) (fields : List String) :
    decodeFields start before (fields.map utf8) = .ok fields := by
  induction fields generalizing before with
  | nil => rfl
  | cons f fields ih =>
    rw [List.map_cons, decodeFields, Text.decode_utf8]
    simp [ih, Except.map]

theorem texts_of_fields {r : Record} {fields : List String} (h : r.fields = fields.map utf8) :
    r.texts = .ok fields := by
  rw [Record.texts, h, decodeFields_utf8]

end TabularShapes.Table
