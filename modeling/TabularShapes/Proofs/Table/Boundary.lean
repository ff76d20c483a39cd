import TabularShapes.Table.Scanner
import Mathlib.Data.List.Infix

/-! Where a table can be cut. Between two records a scanner keeps nothing of what it has read but the
place, so the records after a cut are those of a scanner that stands between records elsewhere, places
aside. Only at its start can a table hold a byte order mark, which is no part of a record. -/

namespace TabularShapes.Table

def after (d : Dialect) (bytes : List UInt8) : Scanner := (start bytes).1.run d (start bytes).2

namespace Scanner

variable {d : Dialect} {s s' : Scanner} {b : UInt8} {a : List UInt8}

theorem run_append (d : Dialect) (s : Scanner) (a b : List UInt8) :
    s.run d (a ++ b) = (s.run d a).run d b :=
  List.foldl_append

theorem records_cons (d : Dialect) (ended : Bool) (s : Scanner) (b : UInt8) (rest : List UInt8) :
    s.records d ended (b :: rest) =
      (s.feed d b).2.toList ++ (s.feed d b).1.records d ended rest := by
  rw [records]
  split <;> next h => rw [h]; rfl

/-! ### Between records -/

/-- Between records neither a field nor a record is open. -/
def Settled (s : Scanner) : Prop := s.mode = .betweenRecords → s.field = [] ∧ s.fields = []

/-- Only the end of a line leads to the place between two records. -/
def SettledBy (b : UInt8) (s : Scanner) : Prop :=
  s.mode = .betweenRecords → isLineEnd b = true ∧ s.field = [] ∧ s.fields = []

theorem settledBy_take (d : Dialect) (s : Scanner) (b : UInt8) : (s.take d b).1.SettledBy b := by
  rw [take]
  split_ifs with hd hl
  · exact nofun
  · exact fun _ => ⟨hl, rfl, rfl⟩
  · exact nofun

theorem settledBy_takeFirst (d : Dialect) (s : Scanner) (b : UInt8) :
    (s.takeFirst d b).1.SettledBy b := by
  rw [takeFirst]
  split_ifs
  · exact nofun
  · exact settledBy_take d s b

theorem Settled.feed (h : s.Settled) (d : Dialect) (b : UInt8) : (s.feed d b).1.SettledBy b := by
  rw [Scanner.feed]
  dsimp only
  split
  · split_ifs with hl
    · exact fun hm => ⟨hl, h hm⟩
    · exact settledBy_takeFirst d _ b
  · exact settledBy_takeFirst d _ b
  · exact settledBy_take d _ b
  · split_ifs <;> exact nofun
  · split_ifs
    · exact nofun
    · exact settledBy_take d _ b

theorem Settled.run (h : s.Settled) (d : Dialect) (a : List UInt8) : (s.run d a).Settled := by
  induction a generalizing s with
  | nil => exact h
  | cons b a ih =>
    have hb : (s.feed d b).1.Settled := fun hm => (h.feed d b hm).2
    exact ih hb

theorem Settled.isLineEnd_of_run (h : s.Settled)
    (hm : (s.run d (a ++ [b])).mode = .betweenRecords) : isLineEnd b = true := by
  rw [run_append] at hm
  exact ((h.run d a).feed d b hm).1

theorem records_of_betweenRecords (h : (s.run d a).mode = .betweenRecords) (ended : Bool) :
    s.records d ended a = s.records d false a := by
  have hsplit := records_append d ended s a []
  have hnone : (s.run d a).records d ended [] = [] := by simp [records, finish?, h]
  rwa [List.append_nil, hnone, List.append_nil] at hsplit

/-! ### Places aside -/

structure Alike (s s' : Scanner) : Prop where
  mode : s.mode = s'.mode
  field : s.field = s'.field
  fields : s.fields = s'.fields

structure AlikeStep (r r' : Scanner × Option Record) : Prop where
  scanner : r.1.Alike r'.1
  record : r.2.map (·.fields) = r'.2.map (·.fields)

theorem alike_of_settled (h : s.Settled) (h' : s'.Settled) (hm : s.mode = .betweenRecords)
    (hm' : s'.mode = .betweenRecords) : s.Alike s' := by
  obtain ⟨hf, hfs⟩ := h hm
  obtain ⟨hf', hfs'⟩ := h' hm'
  exact ⟨hm.trans hm'.symm, hf.trans hf'.symm, hfs.trans hfs'.symm⟩

theorem Alike.push (h : s.Alike s') (mode : Mode) (b : UInt8) :
    AlikeStep (s.push mode b, none) (s'.push mode b, none) :=
  ⟨⟨rfl, congrArg (b :: ·) h.field, h.fields⟩, rfl⟩

theorem Alike.fields_openRecord (h : s.Alike s') : s.openRecord.fields = s'.openRecord.fields := by
  simp only [openRecord, h.field, h.fields]

theorem Alike.take (h : s.Alike s') (d : Dialect) (b : UInt8) :
    AlikeStep (s.take d b) (s'.take d b) := by
  rw [Scanner.take, Scanner.take]
  split_ifs
  · exact ⟨⟨rfl, rfl, by simp only [nextField, h.field, h.fields]⟩, rfl⟩
  · exact ⟨⟨rfl, rfl, rfl⟩, congrArg some h.fields_openRecord⟩
  · exact h.push .unquoted b

theorem Alike.takeFirst (h : s.Alike s') (d : Dialect) (b : UInt8) :
    AlikeStep (s.takeFirst d b) (s'.takeFirst d b) := by
  rw [Scanner.takeFirst, Scanner.takeFirst]
  split_ifs
  · exact ⟨⟨rfl, h.field, h.fields⟩, rfl⟩
  · exact h.take d b

theorem Alike.feed (h : s.Alike s') (d : Dialect) (b : UInt8) :
    AlikeStep (s.feed d b) (s'.feed d b) := by
  obtain ⟨mode, field, fields, start, here⟩ := s
  obtain ⟨mode', field', fields', start', here'⟩ := s'
  obtain ⟨rfl, rfl, rfl⟩ := h
  have hhere : ∀ start here start' here' : Position,
      Alike ⟨mode, field, fields, start, here⟩ ⟨mode, field, fields, start', here'⟩ :=
    fun _ _ _ _ => ⟨rfl, rfl, rfl⟩
  rw [Scanner.feed, Scanner.feed]
  dsimp only
  split
  · split_ifs
    · exact ⟨hhere _ _ _ _, rfl⟩
    · exact (hhere _ _ _ _).takeFirst d b
  · exact (hhere _ _ _ _).takeFirst d b
  · exact (hhere _ _ _ _).take d b
  · split_ifs
    · exact ⟨⟨rfl, rfl, rfl⟩, rfl⟩
    · exact (hhere _ _ _ _).push .quoted b
  · split_ifs
    · exact (hhere _ _ _ _).push .quoted b
    · exact (hhere _ _ _ _).take d b

theorem Alike.finish? (h : s.Alike s') :
    s.finish?.map (·.fields) = s'.finish?.map (·.fields) := by
  rw [Scanner.finish?, Scanner.finish?, ← h.mode]
  split
  · rfl
  · exact congrArg some h.fields_openRecord

theorem Alike.records (h : s.Alike s') (d : Dialect) (ended : Bool) (bytes : List UInt8) :
    (s.records d ended bytes).map (·.fields) = (s'.records d ended bytes).map (·.fields) := by
  induction bytes generalizing s s' with
  | nil =>
    cases ended with
    | false => rfl
    | true => simp only [Scanner.records, if_true, ← Option.toList_map, h.finish?]
  | cons b bytes ih =>
    obtain ⟨hscanner, hrecord⟩ := h.feed d b
    rw [records_cons, records_cons, List.map_append, List.map_append, ← Option.toList_map,
      ← Option.toList_map, hrecord, ih hscanner]

end Scanner

/-! ### The start of a table -/

variable {d : Dialect} {head : List UInt8}

theorem start_of_not_mark (hm : ¬byteOrderMark <+: bytes) :
    start bytes = (Scanner.initial, bytes) := by
  unfold start
  split
  · next rest => exact absurd ⟨rest, rfl⟩ hm
  · rfl

theorem start_suffix (bytes : List UInt8) : (start bytes).2 <:+ bytes := by
  by_cases hm : byteOrderMark <+: bytes
  · obtain ⟨rest, rfl⟩ := hm
    exact List.suffix_append _ _
  · rw [start_of_not_mark hm]

theorem settled_start (bytes : List UInt8) : (start bytes).1.Settled := by
  unfold start
  split <;> exact fun _ => ⟨rfl, rfl⟩

theorem settled_after (d : Dialect) (bytes : List UInt8) : (after d bytes).Settled :=
  (settled_start bytes).run d _

/-- What ends with the end of a line is more than a part of the mark. -/
theorem not_prefix_mark (hne : (start head).2 ≠ []) (hend : (after d head).mode = .betweenRecords) :
    ¬head <+: byteOrderMark := by
  intro hm
  obtain ⟨front, last, hlast⟩ := (List.eq_nil_or_concat' _).resolve_left hne
  have hl : isLineEnd last = true := by
    rw [after, hlast] at hend
    exact (settled_start head).isLineEnd_of_run hend
  have hmem : last ∈ byteOrderMark :=
    hm.subset ((start_suffix head).subset (hlast ▸ List.mem_concat_self))
  have hplain : ∀ b ∈ byteOrderMark, isLineEnd b = false := by simp [byteOrderMark, isLineEnd]
  rw [hplain last hmem] at hl
  cases hl

/-- What stands before a cut keeps its meaning. -/
theorem start_append (hm : ¬head <+: byteOrderMark) (bytes : List UInt8) :
    start (head ++ bytes) = ((start head).1, (start head).2 ++ bytes) := by
  by_cases hmark : byteOrderMark <+: head
  · obtain ⟨rest, rfl⟩ := hmark
    rfl
  · have hmark' : ¬byteOrderMark <+: head ++ bytes := by
      intro hpre
      rcases List.prefix_or_prefix_of_prefix hpre (List.prefix_append head bytes) with h' | h'
      · exact hmark h'
      · exact hm h'
    rw [start_of_not_mark hmark, start_of_not_mark hmark']

theorem after_append (hm : ¬head <+: byteOrderMark) (bytes : List UInt8) :
    after d (head ++ bytes) = (after d head).run d bytes := by
  rw [after, start_append hm, Scanner.run_append, after]

theorem failureMet_append (hm : ¬head <+: byteOrderMark) (bytes : List UInt8)
    (failure : Option String) : Source.failureMet ⟨head ++ bytes, failure⟩ = failure := by
  refine if_neg ?_
  intro heq
  exact hm ⟨bytes, heq⟩

theorem records_append (hm : ¬head <+: byteOrderMark) (bytes : List UInt8)
    (failure : Option String) :
    records d ⟨head ++ bytes, failure⟩ = (start head).1.records d false (start head).2 ++
      (after d head).records d failure.isNone bytes := by
  simp only [records, failureMet_append hm, start_append hm, Scanner.records_append, after]

end TabularShapes.Table
