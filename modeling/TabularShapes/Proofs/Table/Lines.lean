import TabularShapes.Proofs.Table.Boundary
import Mathlib.Data.List.TakeWhile

/-! Where the records of a table stand. A table is a sequence of chunks, one for each record: the line
ends that are skipped before the record, then the bytes of the record up to the one that ends it. The
line that a record is given is the one where the record before it ended, so that it counts no line
feed among those that are skipped. -/

namespace TabularShapes.Table

/-- The bytes of a table that a record takes up, and those before them. -/
@[ext]
structure Chunk where
  before : List UInt8
  /-- The line ends that are skipped before the record. -/
  gap : List UInt8
  body : List UInt8
  record : Record
deriving DecidableEq, Repr

namespace Chunk

def line (c : Chunk) : ℕ := 1 + (c.before ++ c.gap).count 0x0A

/-- The body is that of the record: from a byte that ends no line to the first one that ends a
record, or to the end of the table. -/
structure Holds (d : Dialect) (ended : Bool) (c : Chunk) : Prop where
  gap : ∀ b ∈ c.gap, isLineEnd b = true
  first : ∃ b ∈ c.body.head?, isLineEnd b = false
  unended : Scanner.initial.records d false c.body.dropLast = []
  fields : (Scanner.initial.records d ended c.body).map (·.fields) = [c.record.fields]

end Chunk

/-- How the bytes after `before` fall into chunks. What is left at their end makes no record. -/
inductive Division (d : Dialect) (ended : Bool) : List UInt8 → List UInt8 → List Chunk → Prop
  | nil {before bytes : List UInt8} (h : Scanner.initial.records d ended bytes = []) :
      Division d ended before bytes []
  | last {c : Chunk} (h : c.Holds d ended) (hopen : Scanner.initial.records d false c.body = []) :
      Division d ended c.before (c.gap ++ c.body) [c]
  | cons {c : Chunk} {rest : List UInt8} {cs : List Chunk} (h : c.Holds d false)
      (hrest : Division d ended (c.before ++ c.gap ++ c.body) rest cs) :
      Division d ended c.before (c.gap ++ c.body ++ rest) (c :: cs)

/-- The chunks of a table. A byte order mark is no part of them. -/
def Source.FallsInto (source : Source) (d : Dialect) (cs : List Chunk) : Prop :=
  ∃ mark, source.bytes = mark ++ (start source.bytes).2 ∧
    Division d source.failureMet.isNone mark (start source.bytes).2 cs ∧
      cs.map (·.record) = records d source

namespace Scanner

variable {d : Dialect} {s : Scanner} {b : UInt8}

/-- The scanner before a record: the place is that of the next record as far as its line goes. -/
structure Fresh (s : Scanner) : Prop where
  mode : s.mode = .betweenRecords
  field : s.field = []
  fields : s.fields = []
  line : s.here.line = s.start.line

theorem fresh_initial : initial.Fresh := ⟨rfl, rfl, rfl, rfl⟩

theorem Fresh.alike (h : s.Fresh) : s.Alike initial := ⟨h.mode, h.field, h.fields⟩

/-! ### Steps -/

/-- What a step to the line does to the start of the open record: it stays, or the record ends and
another one starts on that line. -/
inductive Moves (start : Position) (line : ℕ) : Scanner × Option Record → Prop
  | inside {s' : Scanner} (hline : s'.here.line = line) (hstart : s'.start = start) :
      Moves start line (s', none)
  | ends {s' : Scanner} {r : Record} (hline : s'.here.line = line) (hfresh : s'.Fresh)
      (hstart : r.start = start) : Moves start line (s', some r)

theorem Moves.line_eq {start : Position} {line : ℕ} {r : Scanner × Option Record}
    (h : Moves start line r) : r.1.here.line = line := by
  cases h <;> assumption

theorem moves_take (d : Dialect) (s : Scanner) (b : UInt8) :
    Moves s.start s.here.line (s.take d b) := by
  rw [take]
  split_ifs
  · exact .inside rfl rfl
  · exact .ends rfl ⟨rfl, rfl, rfl, rfl⟩ rfl
  · exact .inside rfl rfl

theorem moves_takeFirst (d : Dialect) (s : Scanner) (b : UInt8) :
    Moves s.start s.here.line (s.takeFirst d b) := by
  rw [takeFirst]
  split_ifs
  · exact .inside rfl rfl
  · exact moves_take d s b

theorem line_after (p : Position) (b : UInt8) : (p.after b).line = p.line + [b].count 0x0A := by
  rw [Position.after, List.count_singleton]
  split_ifs <;> rfl

/-- A byte counts as a line if it is a line feed. -/
theorem moves_feed (d : Dialect) (s : Scanner) (b : UInt8) :
    Moves s.start (s.here.line + [b].count 0x0A) (s.feed d b) := by
  rw [← line_after, feed]
  dsimp only
  split
  · split_ifs
    · exact .inside rfl rfl
    · exact moves_takeFirst d { s with here := s.here.after b } b
  · exact moves_takeFirst d { s with here := s.here.after b } b
  · exact moves_take d { s with here := s.here.after b } b
  · split_ifs <;> exact .inside rfl rfl
  · split_ifs
    · exact .inside rfl rfl
    · exact moves_take d { s with here := s.here.after b } b

/-! ### Runs -/

theorem line_run (d : Dialect) (s : Scanner) (bytes : List UInt8) :
    (s.run d bytes).here.line = s.here.line + bytes.count 0x0A := by
  induction bytes generalizing s with
  | nil => rfl
  | cons b bytes ih =>
    rw [run, List.foldl_cons, ← run, ih, (moves_feed d s b).line_eq, Nat.add_assoc,
      ← List.count_append, List.singleton_append]

/-- Bytes that end no record leave its start where it is. Others have a first one that ends a
record. -/
theorem first_end (d : Dialect) (s : Scanner) (bytes : List UInt8) :
    (s.records d false bytes = [] ∧ (s.run d bytes).start = s.start) ∨
      ∃ front b rest s' r, bytes = front ++ b :: rest ∧ s.records d false front = [] ∧
        (s.run d front).feed d b = (s', some r) ∧ s'.Fresh ∧ r.start = s.start := by
  induction bytes generalizing s with
  | nil => exact .inl ⟨rfl, rfl⟩
  | cons b bytes ih =>
    have hmoves := moves_feed d s b
    cases hfeed : s.feed d b with
    | mk s₁ ended =>
    rw [hfeed] at hmoves
    have hrun : ∀ front, s.run d (b :: front) = s₁.run d front := by
      intro front
      rw [run, List.foldl_cons, ← run, hfeed]
    cases hmoves with
    | ends _ hfresh hstart => exact .inr ⟨[], b, bytes, s₁, _, rfl, rfl, hfeed, hfresh, hstart⟩
    | inside _ hstart =>
      have hrecords : ∀ front, s.records d false (b :: front) = s₁.records d false front := by
        intro front
        rw [records_cons, hfeed]
        rfl
      rcases ih s₁ with ⟨hnone, h⟩ | ⟨front, b', rest, s', r, rfl, hnone, hend, hfresh, h⟩
      · exact .inl ⟨by rw [hrecords, hnone], by rw [hrun, h, hstart]⟩
      · refine .inr ⟨b :: front, b', rest, s', r, rfl, ?_, ?_, hfresh, h.trans hstart⟩
        · rw [hrecords, hnone]
        · rw [hrun, hend]

theorem Fresh.skip (d : Dialect) {gap : List UInt8} (h : s.Fresh) (hgap : ∀ b ∈ gap, isLineEnd b = true) :
    (s.run d gap).Alike initial ∧ (s.run d gap).start = s.start ∧
      s.records d false gap = [] := by
  have hskip : ∀ s : Scanner, s.mode = .betweenRecords → ∃ here, s.run d gap = { s with here } ∧
      s.records d false gap = [] := by
    induction gap with
    | nil => exact fun s _ => ⟨s.here, rfl, rfl⟩
    | cons b gap ih =>
      intro s hm
      obtain ⟨hb, hgap⟩ := List.forall_mem_cons.1 hgap
      have hfeed : s.feed d b = ({ s with here := s.here.after b }, none) := by
        rw [feed, hm]
        exact if_pos hb
      obtain ⟨here, hrun, hrecords⟩ := ih hgap { s with here := s.here.after b } hm
      refine ⟨here, ?_, ?_⟩
      · rw [run, List.foldl_cons, ← run, hfeed, hrun]
      · rw [records_cons, hfeed, hrecords]
        rfl
  obtain ⟨here, hrun, hrecords⟩ := hskip s h.mode
  rw [hrun]
  exact ⟨⟨h.mode, h.field, h.fields⟩, rfl, hrecords⟩

theorem Alike.records_eq_nil_iff {s' : Scanner} (h : s.Alike s') {ended : Bool}
    {bytes : List UInt8} :
    s.records d ended bytes = [] ↔ s'.records d ended bytes = [] := by
  rw [← List.map_eq_nil_iff (f := (·.fields)), h.records, List.map_eq_nil_iff]

/-- The bytes after those that end no record give the last record, if the table ends with them. -/
theorem records_of_open {ended : Bool} {bytes : List UInt8} (hnone : s.records d false bytes = []) :
    s.records d ended bytes = if ended then (s.run d bytes).finish?.toList else [] := by
  have hsplit := records_append d ended s bytes []
  rwa [List.append_nil, hnone, List.nil_append, records] at hsplit

theorem exists_of_finish {ended : Bool}
    (h : (if ended then s.finish?.toList else []) ≠ []) : ∃ r : Record, r.start = s.start ∧
      (if ended then s.finish?.toList else []) = [r] := by
  cases ended with
  | false => exact absurd rfl h
  | true =>
    cases hm : s.mode <;> simp [finish?, hm, openRecord] at h ⊢

theorem records_dropLast {bytes : List UInt8} (hnone : s.records d false bytes = []) :
    s.records d false bytes.dropLast = [] := by
  obtain ⟨last, hlast⟩ := bytes.dropLast_prefix
  rw [← hlast, records_append, List.append_eq_nil_iff] at hnone
  exact hnone.1

/-- Bytes that are read between records as one record make a chunk behind skipped line ends. -/
theorem Alike.holds {ended : Bool} {c : Chunk} (h : s.Alike initial)
    (hgap : ∀ b ∈ c.gap, isLineEnd b = true) (hfirst : ∀ b ∈ c.body.head?, isLineEnd b = false)
    (hopen : s.records d false c.body.dropLast = []) (hbody : s.records d ended c.body = [c.record]) :
    c.Holds d ended := by
  have hfields : (initial.records d ended c.body).map (·.fields) = [c.record.fields] := by
    rw [← h.records, hbody]
    rfl
  refine ⟨hgap, ?_, h.records_eq_nil_iff.1 hopen, hfields⟩
  cases hc : c.body with
  | nil =>
    rw [hc] at hfields
    cases ended <;> cases hfields
  | cons b body =>
    rw [hc] at hfirst
    exact ⟨b, rfl, hfirst b rfl⟩

theorem exists_gap (bytes : List UInt8) : ∃ gap tail, bytes = gap ++ tail ∧
    (∀ b ∈ gap, isLineEnd b = true) ∧ ∀ b ∈ tail.head?, isLineEnd b = false := by
  refine ⟨bytes.takeWhile isLineEnd, bytes.dropWhile isLineEnd,
    List.takeWhile_append_dropWhile.symm, fun b hb => List.mem_takeWhile_imp hb, fun b hb => ?_⟩
  have hhead := List.head?_dropWhile_not isLineEnd bytes
  rw [Option.mem_def.1 hb] at hhead
  exact hhead

/-- What a table goes on with before a record falls into chunks. Each record has the line where the
bytes before its chunk end. -/
theorem Fresh.exists_division (d : Dialect) (ended : Bool) (before bytes : List UInt8)
    (h : s.Fresh) (hline : s.start.line = 1 + before.count 0x0A) :
    ∃ cs, Division d ended before bytes cs ∧ cs.map (·.record) = s.records d ended bytes ∧
      ∀ c ∈ cs, c.record.start.line = 1 + c.before.count 0x0A := by
  -- on the number of bytes: a chunk may leave any number of them
  induction hn : bytes.length using Nat.strong_induction_on generalizing s bytes before with
  | _ n ih =>
  subst hn
  by_cases hempty : s.records d ended bytes = []
  · exact ⟨[], .nil (h.alike.records_eq_nil_iff.1 hempty), hempty.symm, by simp⟩
  obtain ⟨gap, tail, rfl, hgap, hfirst⟩ := exists_gap bytes
  obtain ⟨halike, hstart, hskip⟩ := h.skip d hgap
  rw [records_append, hskip, List.nil_append] at hempty ⊢
  rcases first_end d (s.run d gap) tail with
    ⟨hnone, hopen⟩ | ⟨front, b, rest, s', r, rfl, hnone, hend, hfresh, hr⟩
  · -- the end of the table ends the record
    obtain ⟨r, hr, hrecords⟩ : ∃ r : Record, r.start = s.start ∧
        (s.run d gap).records d ended tail = [r] := by
      rw [records_of_open hnone] at hempty ⊢
      rw [← hstart, ← hopen]
      exact exists_of_finish hempty
    let c : Chunk := ⟨before, gap, tail, r⟩
    have hc : c.Holds d ended := halike.holds hgap hfirst (records_dropLast hnone) hrecords
    exact ⟨[c], .last hc (halike.records_eq_nil_iff.1 hnone), hrecords.symm, by simp [c, hr, hline]⟩
  · -- the byte after `front` ends it
    have hbody : (s.run d gap).records d false (front ++ [b]) = [r] := by
      rw [records_append, hnone, records_cons, hend]
      rfl
    have hrun : s.run d (gap ++ (front ++ [b])) = s' := by
      rw [run_append, run_append]
      exact congrArg Prod.fst hend
    let c : Chunk := ⟨before, gap, front ++ [b], r⟩
    have hc : c.Holds d false := by
      refine halike.holds hgap ?_ (by rwa [List.dropLast_concat]) hbody
      cases front <;> exact hfirst
    have hline' : s'.start.line = 1 + (before ++ gap ++ (front ++ [b])).count 0x0A := by
      rw [← hfresh.line, ← hrun, line_run, h.line, hline]
      simp only [List.count_append]
      omega
    obtain ⟨cs, hcs, hmap, hlines⟩ := ih rest.length (by simp; omega) _ rest hfresh hline' rfl
    have hsplit : front ++ b :: rest = front ++ [b] ++ rest := by simp
    refine ⟨c :: cs, ?_, ?_, List.forall_mem_cons.2 ⟨by rw [hr, hstart, hline], hlines⟩⟩
    · rw [hsplit, ← List.append_assoc]
      exact .cons hc hcs
    · rw [records_append, hnone, records_cons, hend, List.map_cons, hmap]
      rfl

end Scanner

/-! ### The chunks of a table -/

variable {d : Dialect} {source : Source} {ended ended' : Bool} {before bytes : List UInt8}
  {c c' : Chunk} {cs cs' : List Chunk}

/-- Bytes end their line ends in one place only. -/
theorem Chunk.Holds.gap_eq (h : c.Holds d ended) (h' : c'.Holds d ended') (rest rest' : List UInt8)
    (heq : c.gap ++ (c.body ++ rest) = c'.gap ++ (c'.body ++ rest')) :
    c.gap = c'.gap ∧ c.body ++ rest = c'.body ++ rest' := by
  have htake : ∀ {ended : Bool} {c : Chunk}, c.Holds d ended → ∀ rest,
      (c.gap ++ (c.body ++ rest)).takeWhile isLineEnd = c.gap := by
    intro ended c h rest
    obtain ⟨b, hb, hend⟩ := h.first
    obtain ⟨body, hbody⟩ := List.head?_eq_some_iff.1 (Option.mem_def.1 hb)
    rw [List.takeWhile_append_of_pos h.gap, hbody, List.cons_append, List.takeWhile_cons_of_neg
      (by simp [hend]), List.append_nil]
  have hgap : c.gap = c'.gap := by rw [← htake h rest, heq, htake h' rest']
  rw [hgap] at heq
  exact ⟨hgap, List.append_cancel_left heq⟩

theorem Chunk.Holds.records_ne_nil (h : c.Holds d false) (rest : List UInt8) :
    Scanner.initial.records d false (c.body ++ rest) ≠ [] := by
  intro hnone
  have hfields := h.fields
  rw [Scanner.records_append, List.append_eq_nil_iff] at hnone
  rw [hnone.1] at hfields
  cases hfields

/-- No other body of a record is a part of the body at its start. -/
theorem Chunk.Holds.eq_of_prefix (h : c.Holds d ended) (h' : c'.Holds d false)
    (hstarts : c'.body <+: c.body) : c'.body = c.body := by
  obtain ⟨rest, hrest⟩ := hstarts
  cases rest with
  | nil => rw [← hrest, List.append_nil]
  | cons b rest =>
    have hnone := h.unended
    rw [← hrest, List.dropLast_append_of_ne_nil (by simp)] at hnone
    exact absurd hnone (h'.records_ne_nil _)

theorem Division.unique (h : Division d ended before bytes cs) (h' : Division d ended before bytes cs')
    (hmap : cs.map (·.record) = cs'.map (·.record)) : cs = cs' := by
  induction h generalizing cs' with
  | nil => exact (List.map_eq_nil_iff.1 hmap.symm).symm
  | @last c hc hopen =>
    generalize hbefore : c.before = before at h'
    generalize hbytes : c.gap ++ c.body = bytes at h'
    cases h' with
    | nil => cases hmap
    | @last c' hc' =>
      obtain ⟨hgap, hbody⟩ := hc.gap_eq hc' [] [] (by simpa using hbytes)
      rw [List.append_nil, List.append_nil] at hbody
      rw [Chunk.ext hbefore hgap hbody (List.cons.inj hmap).1]
    | @cons c' rest' cs' hc' hrest' =>
      -- the first chunk would end a record
      obtain ⟨hgap, hbody⟩ := hc.gap_eq hc' [] rest' (by simpa using hbytes)
      rw [List.append_nil] at hbody
      rw [hbody] at hopen
      exact absurd hopen (hc'.records_ne_nil rest')
  | @cons c rest cs hc hrest ih =>
    generalize hbefore : c.before = before at h'
    generalize hbytes : c.gap ++ c.body ++ rest = bytes at h'
    cases h' with
    | nil => cases hmap
    | @last c' hc' hopen' =>
      obtain ⟨hgap, hbody⟩ := hc.gap_eq hc' rest [] (by simpa using hbytes)
      rw [List.append_nil] at hbody
      rw [← hbody] at hopen'
      exact absurd hopen' (hc.records_ne_nil rest)
    | @cons c' rest' cs' hc' hrest' =>
      obtain ⟨hgap, hsplit⟩ := hc.gap_eq hc' rest rest' (by simpa using hbytes)
      have hbody : c.body = c'.body := by
        have hstarts : c'.body <+: c.body ++ rest := ⟨rest', hsplit.symm⟩
        rcases List.prefix_or_prefix_of_prefix (List.prefix_append c.body rest) hstarts with h | h
        · exact hc'.eq_of_prefix hc h
        · exact (hc.eq_of_prefix hc' h).symm
      obtain ⟨hrecord, hrecords⟩ := List.cons.inj hmap
      obtain rfl : c = c' := Chunk.ext hbefore hgap hbody hrecord
      obtain rfl := List.append_cancel_left hsplit
      rw [ih hrest' hrecords]

/-- Every table falls into chunks, and the line of a record is the one where its chunk starts. -/
theorem exists_chunks (d : Dialect) (source : Source) :
    ∃ cs, source.FallsInto d cs ∧ ∀ c ∈ cs, c.record.start.line = 1 + c.before.count 0x0A := by
  by_cases hm : byteOrderMark <+: source.bytes
  · obtain ⟨bytes, hbytes⟩ := hm
    have hfresh : ({ Scanner.initial with here := ⟨0, 1, 3⟩ } : Scanner).Fresh :=
      ⟨rfl, rfl, rfl, rfl⟩
    obtain ⟨cs, hcs, hmap, hlines⟩ := hfresh.exists_division d source.failureMet.isNone
      byteOrderMark bytes rfl
    refine ⟨cs, ⟨byteOrderMark, ?_, ?_, ?_⟩, hlines⟩
    · rw [← hbytes]
      rfl
    · rw [← hbytes]
      exact hcs
    · rw [hmap, records, ← hbytes]
      rfl
  · obtain ⟨cs, hcs, hmap, hlines⟩ := Scanner.fresh_initial.exists_division d
      source.failureMet.isNone [] source.bytes rfl
    have hstart := start_of_not_mark hm
    refine ⟨cs, ⟨[], ?_, ?_, ?_⟩, hlines⟩
    · rw [hstart, List.nil_append]
    · rwa [hstart]
    · rw [hmap, records, hstart]

namespace Source.FallsInto

theorem records (h : source.FallsInto d cs) : cs.map (·.record) = Table.records d source := by
  obtain ⟨-, -, -, hmap⟩ := h
  exact hmap

theorem unique (h : source.FallsInto d cs) (h' : source.FallsInto d cs') : cs = cs' := by
  obtain ⟨mark, hbytes, hcs, hmap⟩ := h
  obtain ⟨mark', hbytes', hcs', hmap'⟩ := h'
  obtain rfl : mark = mark' := List.append_cancel_right (hbytes.symm.trans hbytes')
  exact hcs.unique hcs' (hmap.trans hmap'.symm)

theorem line (h : source.FallsInto d cs) :
    ∀ c ∈ cs, c.record.start.line = 1 + c.before.count 0x0A := by
  obtain ⟨cs', h', hlines⟩ := exists_chunks d source
  rwa [h.unique h']

end Source.FallsInto

/-- The line of a record is short by the line feeds that are skipped before it. -/
theorem Chunk.line_eq {c : Chunk} (h : c.record.start.line = 1 + c.before.count 0x0A) :
    c.line = c.record.start.line + c.gap.count 0x0A := by
  rw [line, h, List.count_append, Nat.add_assoc]

end TabularShapes.Table
