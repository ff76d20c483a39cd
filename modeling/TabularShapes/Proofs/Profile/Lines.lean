import TabularShapes.Proofs.Profile.Records
import TabularShapes.Proofs.Table.Lines

/-! The lines that a profile reports. A row, and an error over a row, has the line on which the record
before it ended. The record itself starts further down, by as many lines as there are line feeds
between the two. -/

namespace TabularShapes.Profile

open Text (utf8)
open Table (Chunk Dialect Record Source)

variable {header : Header} {fields : List String} {line line' : ℕ} {row : Row} {e : ReadError}
  {cs back : List Chunk}

/-- The first chunk that is not blank makes the header; the others come after it. -/
def Heads (header : Header) (back cs : List Chunk) : Prop :=
  ∃ front head fields, cs = front ++ head :: back ∧ (∀ c ∈ front, Blank c.record) ∧
    recordTexts head.record = .ok fields ∧ isBlankRecord fields = false ∧
      Header.ofFields fields = .ok header

theorem Heads.subset (h : Heads header back cs) : back ⊆ cs := by
  obtain ⟨front, head, fields, rfl, -⟩ := h
  intro c hc
  exact List.mem_append_right _ (List.mem_cons_of_mem _ hc)

theorem line_of_row (h : header.row line fields = .ok row) : row.statement.line = line := by
  rw [Header.row] at h
  split at h
  · simp only [bind_eq_ok_iff] at h
    obtain ⟨_, -, _, -, _, -, h⟩ := h
    cases h
    rfl
  · cases h

theorem RowFault.line_eq (h : RowFault line e) (h' : RowFault line' e) : line = line' := by
  cases h <;> cases h' <;> rfl

theorem RowFault.not_ending {failure : Option String} (h : RowFault line e) :
    ending failure ≠ .error e := by
  intro he
  cases failure <;> cases he
  cases h

theorem RowFault.recordTexts_ne {r : Record} (h : RowFault line e) : recordTexts r ≠ .error e := by
  intro he
  obtain ⟨m, -, rfl⟩ := mapError_eq_error_iff.1 he
  cases h

theorem line_of_recordRow? {r : Record} (h : recordRow? header r = .ok (some row)) :
    row.statement.line = r.start.line := by
  obtain ⟨fields, -, -, h⟩ := recordRow?_eq_ok_some_iff.1 h
  exact line_of_row h

theorem RowFault.line_of_recordRow? {r : Record} (hfault : RowFault line e)
    (h : recordRow? header r = .error e) : line = r.start.line := by
  rcases recordRow?_eq_error_iff.1 h with h | ⟨fields, -, -, h⟩
  · exact absurd h hfault.recordTexts_ne
  · exact hfault.line_eq (rowFault_of_row h)

theorem exists_heads {failure : Option String} {rest : List Record}
    (h : headerOf failure (cs.map (·.record)) = .ok (header, rest)) :
    ∃ back, Heads header back cs ∧ back.map (·.record) = rest := by
  obtain ⟨before, r, fields, hsplit, hbefore, hfields, hblank, hheader⟩ :=
    headerOf_eq_ok_iff.1 h
  obtain ⟨front, others, rfl, rfl, hothers⟩ := List.map_eq_append_iff.1 hsplit
  obtain ⟨head, back, rfl, rfl, rfl⟩ := List.map_eq_cons_iff.1 hothers
  refine ⟨back, ⟨front, head, fields, rfl, fun c hc => ?_, hfields, hblank, hheader⟩, rfl⟩
  exact hbefore _ (List.mem_map_of_mem hc)

variable {d : Dialect} {source : Source} {rows : List Row}

/-- Each row falls short of the line of its record by the line feeds that are skipped before it. -/
theorem rows_of_chunks (hcs : source.FallsInto d cs) (h : (read d source).result = .ok rows) :
    ∃ header back found, Heads header back cs ∧
      List.Forall₂ (fun c row? => recordRow? header c.record = .ok row? ∧
        ∀ row ∈ row?, row.statement.line + c.gap.count 0x0A = c.line) back found ∧
      rows = found.flatMap Option.toList := by
  rw [result_read, bind_eq_ok_iff, ← hcs.records] at h
  obtain ⟨⟨header, rest⟩, hheader, h⟩ := h
  obtain ⟨back, hheads, rfl⟩ := exists_heads hheader
  obtain ⟨-, found, hfound, rfl⟩ := rowsOf_eq_ok_iff.1 h
  refine ⟨header, back, found, hheads, ?_, rfl⟩
  have hback : ∀ c ∈ back, c.record.start.line = 1 + c.before.count 0x0A :=
    fun c hc => hcs.line c (hheads.subset hc)
  rw [List.forall₂_map_left_iff] at hfound
  refine ((List.forall₂_and_left _ _).2 ⟨hback, hfound⟩).imp ?_
  rintro c row? ⟨hline, hrow⟩
  refine ⟨hrow, ?_⟩
  rintro row ⟨⟩
  rw [line_of_recordRow? hrow, Chunk.line_eq hline]

/-- So does an error over a row, which is over the first row that fails. -/
theorem error_of_chunks (hcs : source.FallsInto d cs) (h : (read d source).result = .error e)
    (hfault : RowFault line e) :
    ∃ header front c back, Heads header (front ++ c :: back) cs ∧
      (∀ b ∈ front, ∃ row?, recordRow? header b.record = .ok row?) ∧
      recordRow? header c.record = .error e ∧ line + c.gap.count 0x0A = c.line := by
  rw [result_read, bind_eq_error_iff, ← hcs.records] at h
  rcases h with h | ⟨⟨header, rest⟩, hheader, h⟩
  · rcases headerOf_eq_error h with ⟨r, -, h⟩ | h | rfl | rfl
    · exact absurd h hfault.recordTexts_ne
    · exact absurd h hfault.not_ending
    · cases hfault
    · cases hfault
  · obtain ⟨back, hheads, rfl⟩ := exists_heads hheader
    rcases rowsOf_eq_error_iff.1 h with ⟨front, r, after, hsplit, hfront, hr⟩ | ⟨-, h⟩
    · obtain ⟨front, others, rfl, rfl, hothers⟩ := List.map_eq_append_iff.1 hsplit
      obtain ⟨c, after, rfl, rfl, rfl⟩ := List.map_eq_cons_iff.1 hothers
      have hc : c ∈ cs := hheads.subset (by simp)
      refine ⟨header, front, c, after, hheads, fun b hb => ?_, hr, ?_⟩
      · cases hrow : recordRow? header b.record with
        | ok row? => exact ⟨row?, rfl⟩
        | error e' => exact absurd hrow (hfront _ (List.mem_map_of_mem hb) e')
      · rw [hfault.line_of_recordRow? hr, Chunk.line_eq (hcs.line c hc)]
    · exact absurd h hfault.not_ending

/-- A table falls into chunks, in one way. Its rows, and the errors over them, are reported on the
lines of their records less the line feeds that are skipped before the record: on the true line if
there is none. -/
theorem lines_reported (d : Dialect) (source : Source) : (∃! cs, source.FallsInto d cs) ∧
    ∀ cs, source.FallsInto d cs →
      (∀ rows, (read d source).result = .ok rows → ∃ header back found, Heads header back cs ∧
        List.Forall₂ (fun c row? => recordRow? header c.record = .ok row? ∧
          ∀ row ∈ row?, row.statement.line + c.gap.count 0x0A = c.line) back found ∧
        rows = found.flatMap Option.toList) ∧
      ∀ line e, (read d source).result = .error e → RowFault line e →
        ∃ header front c back, Heads header (front ++ c :: back) cs ∧
          (∀ b ∈ front, ∃ row?, recordRow? header b.record = .ok row?) ∧
          recordRow? header c.record = .error e ∧ line + c.gap.count 0x0A = c.line := by
  refine ⟨?_, fun cs hcs => ⟨fun rows h => rows_of_chunks hcs h, fun line e => error_of_chunks hcs⟩⟩
  obtain ⟨cs, hcs, -⟩ := Table.exists_chunks d source
  exact ⟨cs, hcs, fun cs' hcs' => hcs'.unique hcs⟩

def titleChunk : Chunk := ⟨[], [], utf8 "propertyId\r", ⟨⟨0, 1, 0⟩, [utf8 "propertyId"]⟩⟩

def nameChunk : Chunk := ⟨utf8 "propertyId\r", utf8 "\n", utf8 "name\r", ⟨⟨1, 1, 11⟩, [utf8 "name"]⟩⟩

/-- The line feed of a carriage return and a line feed is skipped: the row of the second line is
reported on the first. -/
theorem line_short_of_crlf :
    Source.FallsInto { bytes := utf8 "propertyId\r\nname\r\n" } {} [titleChunk, nameChunk] ∧
    recordRow? ⟨["propertyId"]⟩ nameChunk.record =
      .ok (some { statement := { property := "name", line := 1 } }) ∧
    (readText {} "propertyId\r\nname\r\n").result =
      .ok [{ statement := { property := "name", line := 1 } }] ∧
    nameChunk.line = 2 := by
  have hbytes : utf8 "propertyId\r\nname\r\n" = titleChunk.gap ++ titleChunk.body ++
      (nameChunk.gap ++ nameChunk.body ++ utf8 "\n") := by
    decide +kernel
  have htitle : titleChunk.Holds {} false :=
    ⟨by decide +kernel, ⟨0x70, by decide +kernel, rfl⟩, by decide +kernel, by decide +kernel⟩
  have hname : nameChunk.Holds {} false :=
    ⟨by decide +kernel, ⟨0x6E, by decide +kernel, rfl⟩, by decide +kernel, by decide +kernel⟩
  have hbefore : titleChunk.before ++ titleChunk.gap ++ titleChunk.body = nameChunk.before := by
    decide +kernel
  have hrest : Table.Scanner.initial.records {} true (utf8 "\n") = [] := by decide +kernel
  have hdivision : Table.Division {} true titleChunk.before (utf8 "propertyId\r\nname\r\n")
      [titleChunk, nameChunk] := by
    rw [hbytes]
    apply Table.Division.cons htitle
    rw [hbefore]
    apply Table.Division.cons hname
    exact .nil hrest
  have hstart : (Table.start (utf8 "propertyId\r\nname\r\n")).2 =
      utf8 "propertyId\r\nname\r\n" := by
    decide +kernel
  refine ⟨⟨titleChunk.before, ?_, ?_, ?_⟩, ?_, ?_, ?_⟩
  · rw [hstart]
    exact (List.nil_append _).symm
  · rwa [Source.failureMet_bytes, hstart]
  · decide +kernel
  · exact toOption_eq_some_iff.1 (by decide +kernel)
  · exact toOption_eq_some_iff.1 (by decide +kernel)
  · decide +kernel

end TabularShapes.Profile
