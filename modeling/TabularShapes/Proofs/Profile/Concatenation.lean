import TabularShapes.Proofs.Profile.Writing
import TabularShapes.Proofs.Table.Boundary

/-! Profiles read in parts. A table that is cut between two records reads as its parts do, each with
the header before it: the rows of the second part follow those of the first, and the first problem of
all is the one that is reported. Only the places of the second part are others. -/

namespace TabularShapes.Profile

open Text (utf8)
open Table (Dialect Malformation Position Record Source after)

variable {d : Dialect} {header header' : Header} {xs ys : List Record} {r r' : Record}

/-! ### Places aside -/

def unplacedFault (m : Malformation) : Malformation := { m with start := ⟨0, 0, 0⟩ }

def ReadError.unplaced : ReadError → ReadError
  | missingProperty _ => missingProperty 0
  | invalidBoolean _ column value => invalidBoolean 0 column value
  | invalidNodeType _ value => invalidNodeType 0 value
  | malformed fault => malformed (unplacedFault fault)
  | e => e

/-- Errors that differ in their places only. -/
def SameError (e e' : ReadError) : Prop := e.unplaced = e'.unplaced

def SameRow (row row' : Row) : Prop := row.unnumbered = row'.unnumbered

def SameRows (rows rows' : List Row) : Prop :=
  rows.map Row.unnumbered = rows'.map Row.unnumbered

theorem agree_decodeFields (start start' : Position) (before : Nat) (fields : List (List UInt8)) :
    Agree (fun m m' => unplacedFault m = unplacedFault m') Eq (Table.decodeFields start before fields)
      (Table.decodeFields start' before fields) := by
  induction fields generalizing before with
  | nil => exact .ok rfl
  | cons f fields ih =>
    rw [Table.decodeFields, Table.decodeFields]
    cases Text.decode f with
    | error valid => exact .error rfl
    | ok text => exact (ih (before + 1)).map fun _ _ h => h ▸ rfl

theorem agree_recordTexts (h : r.fields = r'.fields) :
    Agree SameError Eq (recordTexts r) (recordTexts r') := by
  rw [recordTexts, recordTexts, Record.texts, Record.texts, ← h]
  exact (agree_decodeFields r.start r'.start 0 r.fields).mapError
    fun _ _ he => congrArg ReadError.malformed he

theorem agree_readFlag (line line' : Nat) (column : Column) (text : Option String) :
    Agree SameError Eq (readFlag line column text) (readFlag line' column text) := by
  cases text with
  | none => exact .ok rfl
  | some text =>
    rw [readFlag, readFlag]
    split_ifs
    · exact .ok rfl
    · exact .ok rfl
    · exact .error rfl

theorem agree_readNodeKind (line line' : Nat) (text : Option String) :
    Agree SameError Eq (readNodeKind line text) (readNodeKind line' text) := by
  cases text with
  | none => exact .ok rfl
  | some text =>
    rw [readNodeKind, readNodeKind]
    cases NodeKind.ofKeyword? text with
    | some kind => exact .ok rfl
    | none => exact .error rfl

theorem agree_row {fields fields' : List String}
    (h : ∀ c, header.cell fields c = header'.cell fields' c) (line line' : Nat) :
    Agree SameError SameRow (header.row line fields) (header'.row line' fields') := by
  simp only [Header.row, h]
  cases header'.cell fields' .propertyId with
  | none => exact .error rfl
  | some property =>
    refine (agree_readNodeKind line line' _).bind ?_
    rintro kind _ rfl
    refine (agree_readFlag line line' _ _).bind ?_
    rintro mandatory _ rfl
    refine (agree_readFlag line line' _ _).bind ?_
    rintro repeatable _ rfl
    exact .ok rfl

/-! ### One record after the other -/

def recordRow? (header : Header) (r : Record) : Except ReadError (Option Row) := do
  let fields ← recordTexts r
  if isBlankRecord fields then return none
  else (header.row r.start.line fields).map some

def Blank (r : Record) : Prop := ∃ fields, recordTexts r = .ok fields ∧ isBlankRecord fields = true

theorem Blank.isBlankRecord {fields : List String} (h : Blank r) (hfields : recordTexts r = .ok fields) :
    isBlankRecord fields = true := by
  obtain ⟨fields', hfields', hblank⟩ := h
  rw [hfields] at hfields'
  cases hfields'
  exact hblank

theorem map_nil_append (x : Except ReadError (List Row)) : x.map ([] ++ ·) = x := by
  cases x <;> rfl

theorem result_rowsOf_cons (header : Header) (failure : Option String) (r : Record)
    (rest : List Record) :
    (rowsOf header failure (r :: rest)).result = recordRow? header r >>= fun row? =>
      (rowsOf header failure rest).result.map (row?.toList ++ ·) := by
  simp only [rowsOf, recordRow?, Traced.result_bind, Traced.liftM_eq_of, Traced.result_of]
  cases recordTexts r with
  | error e => rfl
  | ok fields =>
    show Traced.result (if isBlankRecord fields then _ else _) =
      (if isBlankRecord fields then _ else _) >>= _
    split_ifs
    · exact (map_nil_append _).symm
    · simp only [Traced.result_bind, Traced.result_of, Traced.result_report, Traced.result_pure]
      cases header.row r.start.line fields with
      | error e => rfl
      | ok row => cases (rowsOf header failure rest).result <;> rfl

/-- The same is read in two records, each under its own header. -/
def SameCells (header header' : Header) (r r' : Record) : Prop :=
  Agree SameError (fun fields fields' => isBlankRecord fields = isBlankRecord fields' ∧
    ∀ c, header.cell fields c = header'.cell fields' c) (recordTexts r) (recordTexts r')

theorem sameCells_of_fields (header : Header) (h : r.fields = r'.fields) :
    SameCells header header r r' := by
  refine (agree_recordTexts h).mono ?_
  rintro fields _ rfl
  exact ⟨rfl, fun _ => rfl⟩

theorem result_rowsOf_of_blank (h : Blank r) (failure : Option String) (rest : List Record) :
    (rowsOf header failure (r :: rest)).result = (rowsOf header failure rest).result := by
  obtain ⟨fields, hfields, hblank⟩ := h
  have hnone : recordRow? header r = .ok none := by
    rw [recordRow?, hfields]
    exact if_pos hblank
  rw [result_rowsOf_cons, hnone]
  exact map_nil_append _

theorem agree_recordRow? (h : SameCells header header' r r') :
    Agree SameError (fun row? row?' => SameRows row?.toList row?'.toList) (recordRow? header r)
      (recordRow? header' r') := by
  refine h.bind ?_
  rintro fields fields' ⟨hblank, hcells⟩
  rw [hblank]
  split_ifs
  · exact .ok rfl
  · exact (agree_row hcells _ _).map fun _ _ hrow => congrArg (fun row => [row]) hrow

/-- Records that are related one by one. Blank ones may be left out. -/
inductive Aligned (P : Record → Record → Prop) : List Record → List Record → Prop
  | nil : Aligned P [] []
  | cons {r r' : Record} {xs ys : List Record} (h : P r r') (hrest : Aligned P xs ys) :
      Aligned P (r :: xs) (r' :: ys)
  | blank_left {r : Record} {xs ys : List Record} (h : Blank r) (hrest : Aligned P xs ys) :
      Aligned P (r :: xs) ys
  | blank_right {r' : Record} {xs ys : List Record} (h : Blank r') (hrest : Aligned P xs ys) :
      Aligned P xs (r' :: ys)

theorem Aligned.of_forall₂ {P : Record → Record → Prop} (h : List.Forall₂ P xs ys) :
    Aligned P xs ys := by
  induction h with
  | nil => exact .nil
  | cons h _ ih => exact .cons h ih

theorem Aligned.imp {P Q : Record → Record → Prop} (h : Aligned P xs ys)
    (hPQ : ∀ r ∈ xs, ∀ r', P r r' → Q r r') : Aligned Q xs ys := by
  induction h with
  | nil => exact .nil
  | cons h _ ih =>
    obtain ⟨hr, hrest⟩ := List.forall_mem_cons.1 hPQ
    exact .cons (hr _ h) (ih hrest)
  | blank_left h _ ih => exact .blank_left h (ih (List.forall_mem_cons.1 hPQ).2)
  | blank_right h _ ih => exact .blank_right h (ih hPQ)

/-- Records in which the same is read give the same rows, places aside. -/
theorem agree_rowsOf (failure : Option String) (h : Aligned (SameCells header header') xs ys) :
    Agree SameError SameRows (rowsOf header failure xs).result
      (rowsOf header' failure ys).result := by
  induction h with
  | nil =>
    rw [rowsOf, rowsOf]
    cases failure with
    | none => exact .ok rfl
    | some message => exact .error rfl
  | cons hr _ ih =>
    rw [result_rowsOf_cons, result_rowsOf_cons]
    refine (agree_recordRow? hr).bind fun row? row?' hrow => ?_
    refine ih.map fun rows rows' hrows => ?_
    rw [SameRows, List.map_append, List.map_append, hrow, hrows]
  | blank_left hr _ ih => rwa [result_rowsOf_of_blank hr]
  | blank_right hr _ ih => rwa [result_rowsOf_of_blank hr]

theorem result_rowsOf_append (header : Header) (failure : Option String) (xs ys : List Record) :
    (rowsOf header failure (xs ++ ys)).result = (rowsOf header none xs).result >>= fun rows =>
      (rowsOf header failure ys).result.map (rows ++ ·) := by
  induction xs with
  | nil =>
    rw [List.nil_append]
    exact (map_nil_append _).symm
  | cons r xs ih =>
    rw [List.cons_append, result_rowsOf_cons, result_rowsOf_cons, ih]
    cases recordRow? header r with
    | error e => rfl
    | ok row? =>
      cases (rowsOf header none xs).result with
      | error e => rfl
      | ok rows =>
        cases (rowsOf header failure ys).result with
        | error e => rfl
        | ok rows' => simp [bind, Except.bind, Except.map]

theorem headerOf_cons {fields : List String} (h : recordTexts r = .ok fields)
    (failure : Option String) (rs : List Record) : headerOf failure (r :: rs) =
    if isBlankRecord fields then headerOf failure rs
    else (Header.ofFields fields).map fun header => (header, rs) := by
  rw [headerOf, h]
  show (if isBlankRecord fields then _ else _) = _
  split_ifs
  · rfl
  · cases Header.ofFields fields <;> rfl

theorem headerOf_append (h : headerOf none xs = .ok (header, ys)) (failure : Option String)
    (more : List Record) : headerOf failure (xs ++ more) = .ok (header, ys ++ more) := by
  induction xs with
  | nil => cases h
  | cons r xs ih =>
    rw [List.cons_append]
    cases hfields : recordTexts r with
    | error e =>
      rw [headerOf, hfields] at h
      cases h
    | ok fields =>
      rw [headerOf_cons hfields] at h ⊢
      split_ifs at h ⊢
      · exact ih h
      · obtain ⟨header', hheader, h⟩ := map_eq_ok_iff.1 h
        cases h
        rw [hheader]
        rfl

theorem result_read (d : Dialect) (source : Source) :
    (read d source).result = headerOf source.failureMet (Table.records d source) >>= fun p =>
      (rowsOf p.1 source.failureMet p.2).result := by
  simp only [read, Traced.result_bind, Traced.liftM_eq_of, Traced.result_of]
  congr 1
  funext p
  cases (rowsOf p.1 source.failureMet p.2).result <;> rfl

/-! ### Cut tables -/

/-- After a header without rows, a table is read from the place behind it. -/
theorem exists_header {head : List UInt8} (hhead : (read d { bytes := head }).result = .ok [])
    (hend : (after d head).mode = .betweenRecords) :
    ¬head <+: Table.byteOrderMark ∧ ∃ header, ∀ bytes failure,
      (read d { bytes := head ++ bytes, failure }).result =
        (rowsOf header failure ((after d head).records d failure.isNone bytes)).result := by
  rw [result_read, Source.failureMet_bytes] at hhead
  obtain ⟨⟨header, rest⟩, hheader, hrest⟩ := bind_eq_ok_iff.1 hhead
  have hrecords : Table.records d { bytes := head } =
      (Table.start head).1.records d false (Table.start head).2 := by
    rw [Table.records, Source.failureMet_bytes]
    exact Table.Scanner.records_of_betweenRecords hend true
  have hne : (Table.start head).2 ≠ [] := by
    intro hnil
    rw [hrecords, hnil] at hheader
    cases hheader
  have hm := Table.not_prefix_mark hne hend
  refine ⟨hm, header, ?_⟩
  intro bytes failure
  rw [result_read, Table.records_append hm, Table.failureMet_append hm, ← hrecords,
    headerOf_append hheader]
  show (rowsOf header failure (rest ++ _)).result = _
  rw [result_rowsOf_append, hrest]
  exact map_nil_append _

/-- The part behind a cut is read with the header alone, places aside. -/
theorem read_of_cut {head a : List UInt8} (hhead : (read d { bytes := head }).result = .ok [])
    (hend : (after d head).mode = .betweenRecords)
    (hcut : (after d (head ++ a)).mode = .betweenRecords) (b : List UInt8)
    (failure : Option String) :
    ∃ later, (read d { bytes := head ++ a ++ b, failure }).result =
        (read d { bytes := head ++ a }).result >>= (fun rows => later.map (rows ++ ·)) ∧
      Agree SameError SameRows later (read d { bytes := head ++ b, failure }).result := by
  obtain ⟨hm, header, hread⟩ := exists_header hhead hend
  rw [Table.after_append hm] at hcut
  refine ⟨(rowsOf header failure
    (((after d head).run d a).records d failure.isNone b)).result, ?_, ?_⟩
  · rw [List.append_assoc, hread, Table.Scanner.records_append, result_rowsOf_append, hread,
      Table.Scanner.records_of_betweenRecords hcut none.isNone]
  · have halike := Table.Scanner.alike_of_settled ((Table.settled_after d head).run d a)
      (Table.settled_after d head) hcut hend
    have hfields := halike.records d failure.isNone b
    rw [← List.forall₂_eq_eq_eq, List.forall₂_map_left_iff, List.forall₂_map_right_iff] at hfields
    rw [hread]
    exact agree_rowsOf failure (.of_forall₂ (hfields.imp fun _ _ hr => sameCells_of_fields header hr))

/-- A table that is cut between two records fails with the error of its first part if that fails. It
has else the rows of both parts, or fails as the second part does. -/
theorem read_distributes {head a : List UInt8} (hhead : (read d { bytes := head }).result = .ok [])
    (hend : (after d head).mode = .betweenRecords)
    (hcut : (after d (head ++ a)).mode = .betweenRecords) (b : List UInt8)
    (failure : Option String) :
    (∀ e, (read d { bytes := head ++ a }).result = .error e →
      (read d { bytes := head ++ a ++ b, failure }).result = .error e) ∧
    (∀ rows rows', (read d { bytes := head ++ a }).result = .ok rows →
      (read d { bytes := head ++ b, failure }).result = .ok rows' →
        ∃ later, (read d { bytes := head ++ a ++ b, failure }).result = .ok (rows ++ later) ∧
          SameRows later rows') ∧
    ∀ rows e, (read d { bytes := head ++ a }).result = .ok rows →
      (read d { bytes := head ++ b, failure }).result = .error e →
        ∃ e', (read d { bytes := head ++ a ++ b, failure }).result = .error e' ∧
          SameError e' e := by
  obtain ⟨later, hread, hlater⟩ := read_of_cut hhead hend hcut b failure
  rw [hread]
  refine ⟨?_, ?_, ?_⟩
  · intro e he
    rw [he]
    rfl
  · intro rows rows' ha hb
    obtain ⟨later, rfl, hrows⟩ := hlater.exists_ok hb
    rw [ha]
    exact ⟨later, rfl, hrows⟩
  · intro rows e ha hb
    obtain ⟨e', rfl, he⟩ := hlater.exists_error hb
    rw [ha]
    exact ⟨e', rfl, he⟩

def flags : List UInt8 := utf8 "propertyId,Mandatory\r"

def truthful : List UInt8 := utf8 "\np,true\r"

def doubtful : List UInt8 := utf8 "\np,perhaps\r"

/-- The cuts go through pairs of a carriage return and a line feed. -/
theorem read_distributes_of_flags :
    (∃ e, (read {} { bytes := flags ++ doubtful }).result = .error e ∧
      (read {} { bytes := flags ++ doubtful ++ [0xFF], failure := some "reset" }).result =
        .error e) ∧
    (∃ rows later, (read {} { bytes := flags ++ truthful }).result = .ok rows ∧ rows.length = 1 ∧
      (read {} { bytes := flags ++ truthful ++ truthful }).result = .ok (rows ++ later) ∧
      SameRows later rows) ∧
    ∃ e, (read {} { bytes := flags ++ truthful ++ doubtful }).result = .error e ∧
      e.unplaced = .invalidBoolean 0 .mandatory "perhaps" := by
  have hhead : (read {} { bytes := flags }).result = .ok [] :=
    toOption_eq_some_iff.1 (by decide +kernel)
  have hend : (after {} flags).mode = .betweenRecords := by decide +kernel
  have htruthful : (after {} (flags ++ truthful)).mode = .betweenRecords := by decide +kernel
  have hdoubtful : (after {} (flags ++ doubtful)).mode = .betweenRecords := by decide +kernel
  have hlength : (read {} { bytes := flags ++ truthful }).result.toOption.map List.length =
      some 1 := by
    decide +kernel
  have hfails : (failure? (read {} { bytes := flags ++ doubtful }).result).map ReadError.unplaced =
      some (.invalidBoolean 0 .mandatory "perhaps") := by
    decide +kernel
  obtain ⟨rows, hrows, hlength⟩ := Option.map_eq_some_iff.1 hlength
  rw [toOption_eq_some_iff] at hrows
  obtain ⟨e, he, hplaced⟩ := Option.map_eq_some_iff.1 hfails
  rw [failure?_eq_some_iff] at he
  obtain ⟨herror, -, -⟩ := read_distributes hhead hend hdoubtful [0xFF] (some "reset")
  obtain ⟨-, hjoined, -⟩ := read_distributes hhead hend htruthful truthful none
  obtain ⟨-, -, hlate⟩ := read_distributes hhead hend htruthful doubtful none
  obtain ⟨later, hlater, hsame⟩ := hjoined rows rows hrows hrows
  obtain ⟨e', he', hsame'⟩ := hlate rows e hrows he
  exact ⟨⟨e, he, herror e he⟩, ⟨rows, later, hrows, hlength, hlater, hsame⟩,
    ⟨e', he', hsame'.trans hplaced⟩⟩

end TabularShapes.Profile
