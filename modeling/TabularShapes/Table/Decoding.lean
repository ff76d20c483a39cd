import TabularShapes.Table.Scanner
import TabularShapes.Text.Utf8

/-! The fields of a record as text. -/

namespace TabularShapes.Table

/-- A field that is no UTF-8. -/
structure Malformation where
  /-- Where the record of the field starts. -/
  start : Position
  /-- The number of fields before it. -/
  field : Nat
  /-- The number of bytes at its start that are text. -/
  valid : Nat
deriving DecidableEq, Repr

def Malformation.message (m : Malformation) : String :=
  s!"CSV parse error: record {m.start.record} (line {m.start.line}, field: {m.field}, " ++
    s!"byte: {m.start.byte}): invalid utf-8: " ++
    s!"invalid UTF-8 in field {m.field} near byte index {m.valid}"

/-- The fields as text, up to the first that is no UTF-8; `before` fields have gone before. -/
def decodeFields (start : Position) (before : Nat) :
    List (List UInt8) → Except Malformation (List String)
  | [] => .ok []
  | f :: fs =>
    match Text.decode f with
    | .error valid => .error ⟨start, before, valid⟩
    | .ok text => (decodeFields start (before + 1) fs).map (text :: ·)

def Record.texts (r : Record) : Except Malformation (List String) :=
  decodeFields r.start 0 r.fields

end TabularShapes.Table
