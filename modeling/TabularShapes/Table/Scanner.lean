/-! Tables of delimited text, cut into records byte by byte. A record ends at a carriage return or a
line feed outside quotes, and further ones before the next record are skipped. A field that starts
with the quote may hold every byte; inside it a doubled quote stands for one. A field that starts
otherwise takes quotes as they are, and so does the rest of a field after its closing quote.

The scanner is a function of one byte, so what it gives for a sequence is fixed by its state after
each part of the sequence. -/

namespace TabularShapes.Table

/-- The bytes with a meaning of their own. The quote is looked for before the delimiter, and the
delimiter before the end of a line. -/
structure Dialect where
  delimiter : UInt8 := 0x2C
  quote : UInt8 := 0x22
deriving DecidableEq, Repr

/-- The bytes of a table. If its source fails after them, `failure` says how. -/
structure Source where
  bytes : List UInt8
  failure : Option String := none
deriving DecidableEq, Repr

/-- The bytes that may stand before a table to say that it is text. -/
def byteOrderMark : List UInt8 := [0xEF, 0xBB, 0xBF]

/-- The failure that is met after the bytes. Where nothing follows a byte order mark the table has
ended before its source can fail. -/
def Source.failureMet (s : Source) : Option String :=
  if s.bytes = byteOrderMark then none else s.failure

@[simp]
theorem Source.failureMet_bytes (bytes : List UInt8) : failureMet { bytes } = none := by
  simp [failureMet]

structure Position where
  /-- The number of records that ended before. -/
  record : Nat
  /-- One more than the number of line feeds before. -/
  line : Nat
  /-- The number of bytes before. -/
  byte : Nat
deriving DecidableEq, Repr

/-- A record: its fields, and the place where the one before it ended. Skipped line ends stand
between that place and the first byte of the record. -/
structure Record where
  start : Position
  fields : List (List UInt8)
deriving DecidableEq, Repr

inductive Mode
  | betweenRecords
  | fieldStart
  | unquoted
  | quoted
  /-- After a quote in a quoted field: the field is closed, unless another quote follows. -/
  | closed
deriving DecidableEq, Repr

structure Scanner where
  mode : Mode
  /-- The bytes of the open field, the last one first. -/
  field : List UInt8
  /-- The finished fields of the open record, the last one first. -/
  fields : List (List UInt8)
  /-- The start of the open record, or of the next one. -/
  start : Position
  /-- The place before the next byte. -/
  here : Position
deriving DecidableEq, Repr

def isLineEnd (b : UInt8) : Bool := b == 0x0D || b == 0x0A

def Position.after (p : Position) (b : UInt8) : Position :=
  { p with line := if b == 0x0A then p.line + 1 else p.line, byte := p.byte + 1 }

namespace Scanner

def initial : Scanner := ⟨.betweenRecords, [], [], ⟨0, 1, 0⟩, ⟨0, 1, 0⟩⟩

def push (s : Scanner) (mode : Mode) (b : UInt8) : Scanner :=
  { s with mode, field := b :: s.field }

def nextField (s : Scanner) : Scanner :=
  { s with mode := .fieldStart, field := [], fields := s.field.reverse :: s.fields }

def openRecord (s : Scanner) : Record := ⟨s.start, (s.field.reverse :: s.fields).reverse⟩

/-- The open record ends, and the next one starts here. -/
def endRecord (s : Scanner) : Scanner × Option Record :=
  let here := { s.here with record := s.here.record + 1 }
  (⟨.betweenRecords, [], [], here, here⟩, some s.openRecord)

/-- Takes a byte that is no quote with a meaning: it ends a field, a record, or neither. -/
def take (d : Dialect) (s : Scanner) (b : UInt8) : Scanner × Option Record :=
  if b = d.delimiter then (s.nextField, none)
  else if isLineEnd b then s.endRecord
  else (s.push .unquoted b, none)

def takeFirst (d : Dialect) (s : Scanner) (b : UInt8) : Scanner × Option Record :=
  if b = d.quote then ({ s with mode := .quoted }, none) else s.take d b

/-- Takes a byte, and gives the record that it ends, if it ends one. -/
def feed (d : Dialect) (s : Scanner) (b : UInt8) : Scanner × Option Record :=
  let s := { s with here := s.here.after b }
  match s.mode with
  | .betweenRecords => if isLineEnd b then (s, none) else s.takeFirst d b
  | .fieldStart => s.takeFirst d b
  | .unquoted => s.take d b
  | .quoted => if b = d.quote then ({ s with mode := .closed }, none) else (s.push .quoted b, none)
  | .closed => if b = d.quote then (s.push .quoted b, none) else s.take d b

/-- The record that the end of the table ends, if one is open. -/
def finish? (s : Scanner) : Option Record :=
  match s.mode with
  | .betweenRecords => none
  | _ => some s.openRecord

def run (d : Dialect) (s : Scanner) (bytes : List UInt8) : Scanner :=
  bytes.foldl (fun s b => (s.feed d b).1) s

/-- The records that end within the bytes, and the last one if the table ends after them. -/
def records (d : Dialect) (ended : Bool) (s : Scanner) : List UInt8 → List Record
  | [] => if ended then s.finish?.toList else []
  | b :: rest =>
    match s.feed d b with
    | (s, none) => records d ended s rest
    | (s, some r) => r :: records d ended s rest

/-- What the bytes before a cut give and what those after it give makes up the whole. -/
theorem records_append (d : Dialect) (ended : Bool) (s : Scanner) (a b : List UInt8) :
    s.records d ended (a ++ b) = s.records d false a ++ (s.run d a).records d ended b := by
  induction a generalizing s with
  | nil => simp [records, run]
  | cons x rest ih =>
    simp only [List.cons_append, records, run, List.foldl_cons]
    split <;> next h => simp [h, ih, run]

end Scanner

/-- The table without the byte order mark at its start, and the scanner before its first byte. -/
def start : List UInt8 → Scanner × List UInt8
  | 0xEF :: 0xBB :: 0xBF :: rest =>
    ({ Scanner.initial with here := { Scanner.initial.here with byte := 3 } }, rest)
  | bytes => (Scanner.initial, bytes)

/-- The records of a table. A source that fails ends no record. -/
def records (d : Dialect) (source : Source) : List Record :=
  let (scanner, bytes) := start source.bytes
  scanner.records d source.failureMet.isNone bytes

end TabularShapes.Table
