import TabularShapes.Profile.Reading
import TabularShapes.Proofs.Outcome
import TabularShapes.Proofs.Table.Quoting

/-! Profiles written as tables: the columns in any order, with others between them, and all fields
between quotes. Such a table reads as the rows that were written. -/

namespace TabularShapes.Profile

open Table (Dialect LineEnd Record)
open Text (utf8)

/-! ### The written table -/

/-- The head of a column, which has a meaning or only a title. -/
inductive Heading
  | known (c : Column)
  | other (title : String)
deriving DecidableEq, Repr

def Heading.title : Heading → String
  | known c => c.title
  | other title => title

/-- No column is missing, and no column without a meaning is taken for one that has a meaning. A
column may come back: its cells are the same each time. -/
structure Arranged (headings : List Heading) : Prop where
  known : ∀ c, .known c ∈ headings
  other : ∀ t c, .other t ∈ headings → Text.trim t ≠ Column.title c

def Row.text? (r : Row) : Column → Option String
  | .shapeId => r.shape
  | .shapeLabel => r.shapeLabel
  | .propertyId => some r.statement.property
  | .propertyLabel => r.statement.label
  | .mandatory => some (if r.statement.mandatory then "true" else "false")
  | .repeatable => some (if r.statement.repeatable then "true" else "false")
  | .valueNodeType => r.statement.nodeKind.map NodeKind.keyword
  | .valueDatatype => r.statement.datatype
  | .valueShape => r.statement.valueShape

/-- A row in its table: `filler` holds the cells of the columns without a meaning, by their places. -/
structure Entry where
  row : Row
  filler : Nat → String
  lineEnd : LineEnd

def Entry.field (e : Entry) (place : Nat) : Heading → String
  | .known c => (e.row.text? c).getD ""
  | .other _ => e.filler place

def Entry.fields (headings : List Heading) (e : Entry) : List String := headings.mapIdx e.field

def toRecords (headings : List Heading) (headerEnd : LineEnd) (entries : List Entry) :
    List (List String × LineEnd) :=
  (headings.map Heading.title, headerEnd) :: entries.map fun e => (e.fields headings, e.lineEnd)

def write (d : Dialect) (headings : List Heading) (headerEnd : LineEnd) (closed : Bool)
    (entries : List Entry) : String :=
  .ofList (Table.writeRecords d closed (toRecords headings headerEnd entries))

/-- A text that is there once the white space around it is gone. -/
def IsTrimmed (t : String) : Prop := Text.trim t = t ∧ t ≠ ""

/-- The texts of the row are trimmed, as a reader leaves them. -/
structure Row.Clean (r : Row) : Prop where
  property : IsTrimmed r.statement.property
  optional : ∀ t, some t ∈ [r.shape, r.shapeLabel, r.statement.label, r.statement.datatype,
    r.statement.valueShape] → IsTrimmed t

def Row.unnumbered (r : Row) : Row := { r with statement := { r.statement with line := 0 } }

/-! ### Cells -/

variable {headings : List Heading} {e : Entry} {c : Column} {fields : List String} {line : Nat}

theorem Column.trim_title (c : Column) : Text.trim c.title = c.title := by cases c <;> decide

theorem Column.title_injective {c c' : Column} (h : c.title = c'.title) : c = c' := by
  revert h
  cases c <;> cases c' <;> decide

def headerFor (headings : List Heading) : Header := ⟨(headings.map Heading.title).map Text.trim⟩

theorem Arranged.place (ha : Arranged headings) (c : Column) :
    ∃ i, (headerFor headings).place? c = some i ∧ headings[i]? = some (.known c) := by
  have hsome : ((headerFor headings).place? c).isSome := by
    simp only [Header.place?, List.findIdx?_isSome, List.any_eq_true, headerFor]
    exact ⟨c.title, List.mem_map.2 ⟨c.title, List.mem_map.2 ⟨_, ha.known c, rfl⟩, c.trim_title⟩,
      beq_self_eq_true _⟩
  obtain ⟨i, hi⟩ := Option.isSome_iff_exists.1 hsome
  refine ⟨i, hi, ?_⟩
  -- the title at this place is that of the column, so that the heading can be no other
  obtain ⟨hlt, htitle, -⟩ := List.findIdx?_eq_some_iff_getElem.1 hi
  simp only [headerFor, List.length_map] at hlt
  simp only [headerFor, List.getElem_map, beq_iff_eq] at htitle
  rw [List.getElem?_eq_getElem hlt]
  have hmem : headings[i] ∈ headings := List.getElem_mem hlt
  cases hh : headings[i] with
  | known c' =>
    rw [hh, Heading.title, Column.trim_title] at htitle
    rw [Column.title_injective htitle]
  | other t =>
    rw [hh] at hmem htitle
    exact (ha.other t c hmem htitle).elim

theorem Row.Clean.text {r : Row} (h : r.Clean) {t : String} (ht : r.text? c = some t) :
    IsTrimmed t := by
  cases c with
  | propertyId =>
    cases ht
    exact h.property
  | mandatory | repeatable =>
    cases ht
    split <;> exact ⟨by decide, by decide⟩
  | valueNodeType =>
    obtain ⟨k, -, rfl⟩ := Option.map_eq_some_iff.1 ht
    cases k <;> exact ⟨by decide, by decide⟩
  | shapeId | shapeLabel | propertyLabel | valueDatatype | valueShape =>
    exact h.optional t (by simp [← ht, Row.text?])

theorem cell_fields (ha : Arranged headings) (hc : e.row.Clean) (c : Column) :
    (headerFor headings).cell (e.fields headings) c = e.row.text? c := by
  obtain ⟨i, hplace, hi⟩ := ha.place c
  have hfield : (e.fields headings)[i]? = some ((e.row.text? c).getD "") := by
    simp [Entry.fields, Entry.field, hi]
  rw [Header.cell, hplace, Option.bind_some, hfield, Option.map_some]
  cases ht : e.row.text? c with
  | none => rfl
  | some t =>
    obtain ⟨htrim, hne⟩ := hc.text ht
    simp [htrim, hne]

theorem not_isBlankRecord (h : ∃ f ∈ fields, Text.trim f ≠ "") : isBlankRecord fields = false := by
  obtain ⟨f, hf, hne⟩ := h
  simp only [isBlankRecord, List.all_eq_false, beq_iff_eq]
  exact ⟨f, hf, hne⟩

theorem not_isBlankRecord_of_cell {h : Header} {t : String} (hcell : h.cell fields c = some t) :
    isBlankRecord fields = false := by
  obtain ⟨htext, hne⟩ := Option.filter_eq_some_iff.1 hcell
  obtain ⟨f, hf, rfl⟩ := Option.map_eq_some_iff.1 htext
  obtain ⟨i, -, hi⟩ := Option.bind_eq_some_iff.1 hf
  exact not_isBlankRecord ⟨f, List.mem_of_getElem? hi, by simpa using hne⟩

/-! ### Records -/

theorem readFlag_text (line : Nat) (column : Column) (b : Bool) :
    readFlag line column (some (if b then "true" else "false")) = .ok b := by
  have hf : Text.sameIgnoringCase "false" "true" = false := by decide
  cases b <;> simp [readFlag, hf]

theorem readNodeKind_keyword (line : Nat) (kind : Option NodeKind) :
    readNodeKind line (kind.map NodeKind.keyword) = .ok kind := by
  cases kind <;> simp [readNodeKind]

theorem row_fields (ha : Arranged headings) (hc : e.row.Clean) (line : Nat) :
    (headerFor headings).row line (e.fields headings) =
      .ok { e.row with statement := { e.row.statement with line } } := by
  simp only [Header.row, cell_fields ha hc, Row.text?, readFlag_text, readNodeKind_keyword]
  rfl

theorem recordTexts_of_fields {r : Record} (h : r.fields = fields.map utf8) :
    recordTexts r = .ok fields := by
  rw [recordTexts, Table.texts_of_fields h]
  rfl

theorem headerOf_titles (ha : Arranged headings) {r : Record} (rest : List Record)
    (h : r.fields = (headings.map Heading.title).map utf8) :
    headerOf none (r :: rest) = .ok (headerFor headings, rest) := by
  have htitle : Column.propertyId.title ∈ (headings.map Heading.title).map Text.trim :=
    List.mem_map.2 ⟨_, List.mem_map.2 ⟨_, ha.known .propertyId, rfl⟩, Column.trim_title _⟩
  have hblank : isBlankRecord (headings.map Heading.title) = false := by
    obtain ⟨t, ht, htrim⟩ := List.mem_map.1 htitle
    refine not_isBlankRecord ⟨t, ht, ?_⟩
    rw [htrim]
    decide
  have hheader : Header.ofFields (headings.map Heading.title) = .ok (headerFor headings) :=
    if_pos htitle
  rw [headerOf, recordTexts_of_fields h]
  show (if isBlankRecord _ then _ else _) = _
  rw [hblank, if_neg Bool.false_ne_true, hheader]
  rfl

theorem rowsOf_entries (ha : Arranged headings) {entries : List Entry}
    (hclean : ∀ e ∈ entries, e.row.Clean) {records : List Record}
    (h : records.map (·.fields) = entries.map fun e => (e.fields headings).map utf8) :
    ∃ rows, (rowsOf (headerFor headings) none records).result = .ok rows ∧
      rows.map Row.unnumbered = entries.map (·.row.unnumbered) := by
  induction entries generalizing records with
  | nil =>
    rw [List.map_eq_nil_iff.1 h]
    exact ⟨[], rfl, rfl⟩
  | cons e entries ih =>
    obtain ⟨r, rest, rfl, hr, hrest⟩ := List.map_eq_cons_iff.1 h
    have hc : e.row.Clean := hclean e List.mem_cons_self
    obtain ⟨rows, hrows, heq⟩ := ih (fun e he => hclean e (List.mem_cons_of_mem _ he)) hrest
    have hblank : isBlankRecord (e.fields headings) = false :=
      not_isBlankRecord_of_cell (cell_fields ha hc .propertyId)
    refine ⟨{ e.row with statement := { e.row.statement with line := r.start.line } } :: rows,
      ?_, ?_⟩
    · rw [rowsOf, Traced.result_bind]
      refine bind_eq_ok_iff.2 ⟨_, recordTexts_of_fields hr, ?_⟩
      rw [hblank, if_neg Bool.false_ne_true, Traced.result_bind]
      refine bind_eq_ok_iff.2 ⟨_, row_fields ha hc _, ?_⟩
      rw [Traced.result_bind, Traced.result_report, Traced.result_bind, hrows]
      rfl
    · rw [List.map_cons, List.map_cons, heq]
      rfl

/-- A written profile reads as its rows. -/
theorem readText_write {d : Dialect} (hd : d.Plain) (ha : Arranged headings) (headerEnd : LineEnd)
    (closed : Bool) {entries : List Entry} (hclean : ∀ e ∈ entries, e.row.Clean) :
    ∃ rows, (readText d (write d headings headerEnd closed entries)).result = .ok rows ∧
      rows.map Row.unnumbered = entries.map (·.row.unnumbered) := by
  have hnonempty : headings ≠ [] := List.ne_nil_of_mem (ha.known .propertyId)
  have hfields : ∀ r ∈ toRecords headings headerEnd entries, r.1 ≠ [] := by
    intro r hr
    rcases List.mem_cons.1 hr with rfl | hr
    · simpa using hnonempty
    · obtain ⟨e, -, rfl⟩ := List.mem_map.1 hr
      simpa [Entry.fields] using hnonempty
  have hrecords := Table.fields_of_writeRecords hd closed hfields
  rw [toRecords, List.map_cons] at hrecords
  obtain ⟨r, rest, hr, htitles, hrest⟩ := List.map_eq_cons_iff.1 hrecords
  rw [List.map_map] at hrest
  obtain ⟨rows, hrows, heq⟩ := rowsOf_entries ha hclean hrest
  refine ⟨rows, ?_, heq⟩
  have hbytes : utf8 (write d headings headerEnd closed entries) =
      Text.encode (Table.writeRecords d closed (toRecords headings headerEnd entries)) := by
    rw [utf8, write, String.toList_ofList]
  rw [readText, read, hbytes, toRecords, hr, Table.Source.failureMet_bytes, Traced.result_bind]
  refine bind_eq_ok_iff.2 ⟨_, headerOf_titles ha rest htitles, ?_⟩
  rw [Traced.result_bind, hrows]
  rfl

def barred : Dialect := { delimiter := 0x3B, quote := 0x7C }

/-- The columns from the last to the first, with notes before and between them. -/
def reversed : List Heading :=
  [.other "note", .known .valueShape, .known .valueDatatype, .known .valueNodeType,
    .known .repeatable, .other "Repeatable?|", .known .mandatory, .known .propertyLabel,
    .known .propertyId, .known .shapeLabel, .known .shapeId]

/-- Two rows whose texts hold quotes, delimiters and line ends. -/
def awkward : List Entry :=
  [⟨⟨some "ex:Shape", some "|a;b|", ⟨"ex:größe", some "two\r\nlines", true, false, some .iri, none,
      some "ex:Shape", 0⟩⟩, fun _ => " |\n", .crlf⟩,
    ⟨⟨none, none, ⟨"a||", none, false, true, none, some "xsd:日付", none, 7⟩⟩, fun _ => "", .cr⟩]

theorem readText_write_of_awkward :
    barred.Plain ∧ Arranged reversed ∧ (∀ e ∈ awkward, e.row.Clean) ∧
      ∃ rows, (readText barred (write barred reversed .lf false awkward)).result = .ok rows ∧
        rows.map Row.unnumbered = awkward.map (·.row.unnumbered) := by
  have hd : barred.Plain := by constructor <;> decide
  have ha : Arranged reversed := by
    constructor
    · intro c
      cases c <;> decide
    · intro t c h
      have ht : t = "note" ∨ t = "Repeatable?|" := by simpa [reversed] using h
      rcases ht with rfl | rfl <;> cases c <;> decide
  have hclean : ∀ e ∈ awkward, e.row.Clean := by
    intro e he
    rcases List.mem_pair.1 he with rfl | rfl
    · constructor
      · exact ⟨by decide, by decide⟩
      · intro t ht
        simp at ht
        rcases ht with rfl | rfl | rfl | rfl <;> exact ⟨by decide, by decide⟩
    · constructor
      · exact ⟨by decide, by decide⟩
      · intro t ht
        simp at ht
        subst ht
        exact ⟨by decide, by decide⟩
  exact ⟨hd, ha, hclean, readText_write hd ha .lf false hclean⟩

end TabularShapes.Profile
