import TabularShapes.Proofs.Table.Boundary
import TabularShapes.Proofs.Table.Quoting

/-! Fields of a table that is text are text. The bytes with a meaning are ASCII, and no byte of a
longer character is, so that a field neither begins nor ends within a character and none of its bytes
is dropped. -/

namespace TabularShapes.Text

def IsText (bytes : List UInt8) : Prop := ∃ cs, bytes = encode cs

theorem isText_nil : IsText [] := ⟨[], rfl⟩

theorem isText_utf8 (s : String) : IsText (utf8 s) := ⟨s.toList, rfl⟩

theorem encode_cons (c : Char) (cs : List Char) :
    encode (c :: cs) = String.utf8EncodeChar c ++ encode cs := rfl

theorem IsText.append_char {bytes : List UInt8} (h : IsText bytes) (c : Char) :
    IsText (bytes ++ String.utf8EncodeChar c) := by
  obtain ⟨cs, rfl⟩ := h
  exact ⟨cs ++ [c], by simp [encode]⟩

theorem IsText.exists_utf8 {bytes : List UInt8} (h : IsText bytes) : ∃ s, utf8 s = bytes := by
  obtain ⟨cs, rfl⟩ := h
  exact ⟨String.ofList cs, by rw [utf8, String.toList_ofList]⟩

/-- A character is one ASCII byte, or none of its bytes is ASCII. -/
theorem encodeChar_cases (c : Char) : (∃ b : UInt8, b.toNat < 128 ∧ String.utf8EncodeChar c = [b]) ∨
    ∀ b ∈ String.utf8EncodeChar c, 128 ≤ b.toNat := by
  by_cases h : ∃ b ∈ String.utf8EncodeChar c, b.toNat < 128
  · obtain ⟨b, hb, hlt⟩ := h
    exact .inl ⟨b, hlt, (eq_of_mem_encodeChar hb hlt).1⟩
  · refine .inr fun b hb => ?_
    by_contra hlt
    exact h ⟨b, hb, by omega⟩

end TabularShapes.Text

namespace TabularShapes.Table

open Text (IsText encode)

structure Dialect.Ascii (d : Dialect) : Prop where
  quote : d.quote.toNat < 128
  delimiter : d.delimiter.toNat < 128

def Record.IsText (r : Record) : Prop := ∀ f ∈ r.fields, Text.IsText f

namespace Scanner

variable {d : Dialect} {s : Scanner} {b : UInt8}

/-- What has been read of the open record is text. -/
structure Whole (s : Scanner) : Prop where
  field : IsText s.field.reverse
  fields : ∀ f ∈ s.fields, IsText f

/-- After the step what has been read is text, and so is the record that the step ends. -/
structure WholeStep (r : Scanner × Option Record) : Prop where
  scanner : r.1.Whole
  record : ∀ x ∈ r.2, x.IsText

theorem Whole.step (h : s.Whole) : WholeStep (s, none) := ⟨h, by simp⟩

theorem Whole.isText_openRecord (h : s.Whole) : s.openRecord.IsText := by
  intro f hf
  rw [openRecord, List.mem_reverse] at hf
  rcases List.mem_cons.1 hf with rfl | hf
  · exact h.field
  · exact h.fields f hf

/-! ### ASCII characters -/

theorem Whole.push (h : s.Whole) (hb : b.toNat < 128) (mode : Mode) :
    WholeStep (s.push mode b, none) := by
  refine Whole.step ⟨?_, h.fields⟩
  rw [Scanner.push, List.reverse_cons, ← Text.encodeChar_ascii hb]
  exact h.field.append_char _

theorem Whole.take (h : s.Whole) (hb : b.toNat < 128) (d : Dialect) : WholeStep (s.take d b) := by
  rw [Scanner.take]
  split_ifs
  · exact Whole.step ⟨Text.isText_nil, List.forall_mem_cons.2 ⟨h.field, h.fields⟩⟩
  · refine ⟨⟨Text.isText_nil, by simp [endRecord]⟩, ?_⟩
    rintro _ ⟨⟩
    exact h.isText_openRecord
  · exact h.push hb .unquoted

theorem Whole.takeFirst (h : s.Whole) (hb : b.toNat < 128) (d : Dialect) :
    WholeStep (s.takeFirst d b) := by
  rw [Scanner.takeFirst]
  split_ifs
  · exact Whole.step ⟨h.field, h.fields⟩
  · exact h.take hb d

theorem Whole.feed (h : s.Whole) (hb : b.toNat < 128) (d : Dialect) : WholeStep (s.feed d b) := by
  have hhere : ({ s with here := s.here.after b } : Scanner).Whole := ⟨h.field, h.fields⟩
  rw [Scanner.feed]
  dsimp only
  split
  · split_ifs
    · exact hhere.step
    · exact hhere.takeFirst hb d
  · exact hhere.takeFirst hb d
  · exact hhere.take hb d
  · split_ifs
    · exact Whole.step ⟨h.field, h.fields⟩
    · exact hhere.push hb .quoted
  · split_ifs
    · exact hhere.push hb .quoted
    · exact hhere.take hb d

/-! ### Other characters -/

/-- A byte that is not ASCII goes into the open field. -/
theorem feed_of_not_ascii (hd : d.Ascii) (hb : 128 ≤ b.toNat) (s : Scanner) :
    ∃ mode here, s.feed d b = ({ s with mode, field := b :: s.field, here }, none) := by
  have hquote : b ≠ d.quote := by
    rintro rfl
    have hlt := hd.quote
    omega
  have hdelimiter : b ≠ d.delimiter := by
    rintro rfl
    have hlt := hd.delimiter
    omega
  have hend : isLineEnd b = false := by
    rw [isLineEnd, Bool.or_eq_false_iff, beq_eq_false_iff_ne, beq_eq_false_iff_ne]
    constructor <;> rintro rfl <;> exact absurd hb (by decide)
  cases hm : s.mode <;>
    simp [Scanner.feed, hm, hquote, Scanner.takeFirst, Scanner.take, hdelimiter, hend, Scanner.push]

theorem leads_of_not_ascii (hd : d.Ascii) {bytes : List UInt8}
    (hbytes : ∀ b ∈ bytes, 128 ≤ b.toNat) (s : Scanner) :
    ∃ s', Leads d s bytes s' ∧ s'.field = bytes.reverse ++ s.field ∧ s'.fields = s.fields := by
  induction bytes generalizing s with
  | nil => exact ⟨s, .refl, rfl, rfl⟩
  | cons b bytes ih =>
    obtain ⟨hb, hbytes⟩ := List.forall_mem_cons.1 hbytes
    obtain ⟨mode, here, hstep⟩ := feed_of_not_ascii hd hb s
    obtain ⟨s', hleads, hfield, hfields⟩ := ih hbytes { s with mode, field := b :: s.field, here }
    refine ⟨s', (Leads.step hstep).trans hleads, ?_, hfields⟩
    rw [hfield, List.reverse_cons, List.append_assoc, List.singleton_append]

/-! ### Texts -/

theorem Whole.records (hd : d.Ascii) (h : s.Whole) (ended : Bool) (cs : List Char) :
    ∀ r ∈ s.records d ended (encode cs), r.IsText := by
  induction cs generalizing s with
  | nil =>
    intro r hr
    have hopen : r ∈ s.finish?.toList := by
      cases ended with
      | false => cases hr
      | true => exact hr
    rw [Option.mem_toList, finish?] at hopen
    split at hopen
    · cases hopen
    · cases hopen
      exact h.isText_openRecord
  | cons c cs ih =>
    rw [Text.encode_cons]
    rcases Text.encodeChar_cases c with ⟨b, hb, hc⟩ | hhigh
    · intro r hr
      obtain ⟨hscanner, hrecord⟩ := h.feed hb d
      rw [hc, List.singleton_append, records_cons, List.mem_append, Option.mem_toList] at hr
      rcases hr with hr | hr
      · exact hrecord r hr
      · exact ih hscanner r hr
    · obtain ⟨s', hleads, hfield, hfields⟩ := leads_of_not_ascii hd hhigh s
      rw [hleads]
      refine ih ⟨?_, by rw [hfields]; exact h.fields⟩
      rw [hfield, List.reverse_append, List.reverse_reverse]
      exact h.field.append_char c

end Scanner

/-- A byte order mark is a character by itself. -/
theorem start_encode (cs : List Char) :
    (start (encode cs)).1.Whole ∧ IsText (start (encode cs)).2 := by
  have hinitial : ∀ here, ({ Scanner.initial with here } : Scanner).Whole :=
    fun _ => ⟨Text.isText_nil, by simp [Scanner.initial]⟩
  unfold start
  split
  · next rest heq =>
    refine ⟨hinitial _, ?_⟩
    cases cs with
    | nil => cases heq
    | cons c cs =>
      have hc := Text.encodes_utf8EncodeChar c
      rw [Text.encode_cons] at heq
      generalize String.utf8EncodeChar c = bytes at hc heq
      -- the first byte of the mark opens a character of three bytes
      cases hc with
      | one ha =>
        obtain ⟨rfl, -⟩ := List.cons.inj heq
        exact absurd ha (by decide)
      | two ha =>
        obtain ⟨rfl, -⟩ := List.cons.inj heq
        exact absurd ha.2 (by decide)
      | three =>
        have hrest : encode cs = rest := congrArg (List.drop 3) heq
        exact ⟨cs, hrest.symm⟩
      | four ha =>
        obtain ⟨rfl, -⟩ := List.cons.inj heq
        exact absurd ha (by decide)
  · exact ⟨hinitial _, cs, rfl⟩

/-- The records of a table that is text are text, whatever comes after it. -/
theorem isText_of_mem_records {d : Dialect} (hd : d.Ascii) {source : Source} {r : Record}
    (hsource : IsText source.bytes) (hr : r ∈ records d source) : r.IsText := by
  obtain ⟨cs, hcs⟩ := hsource
  rw [records, hcs] at hr
  obtain ⟨hwhole, rest, hrest⟩ := start_encode cs
  dsimp only at hr
  rw [hrest] at hr
  exact hwhole.records hd _ rest r hr

theorem Record.IsText.exists_texts {r : Record} (h : r.IsText) : ∃ fields, r.texts = .ok fields := by
  have hfields : ∀ fs : List (List UInt8), (∀ f ∈ fs, Text.IsText f) →
      ∃ fields : List String, fs = fields.map Text.utf8 := by
    intro fs hfs
    induction fs with
    | nil => exact ⟨[], rfl⟩
    | cons f fs ih =>
      obtain ⟨text, htext⟩ := (hfs f List.mem_cons_self).exists_utf8
      obtain ⟨fields, hfields⟩ := ih fun f hf => hfs f (List.mem_cons_of_mem _ hf)
      exact ⟨text :: fields, by rw [hfields, ← htext, List.map_cons]⟩
  obtain ⟨fields, hr⟩ := hfields r.fields h
  exact ⟨fields, texts_of_fields hr⟩

end TabularShapes.Table
