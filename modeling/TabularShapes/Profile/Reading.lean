import TabularShapes.Log.Traced
import TabularShapes.Profile.Column
import TabularShapes.Profile.Row

/-! Reading a profile from a table: the first record that is not blank is the header, and every
other record that is not blank is a row. The first problem, record by record, ends the reading; a
source that fails is a problem after the last record that it completed. -/

namespace TabularShapes.Profile

open Log (Event)
open Table (Dialect Record Source)

/-- Whether no field holds more than white space. -/
def isBlankRecord (fields : List String) : Bool := fields.all fun f => Text.trim f == ""

/-- A flag: `true` or `false` in whatever case, and false where nothing is written. -/
def readFlag (line : Nat) (column : Column) : Option String → Except ReadError Bool
  | none => .ok false
  | some text =>
    if Text.sameIgnoringCase text "true" then .ok true
    else if Text.sameIgnoringCase text "false" then .ok false
    else .error (.invalidBoolean line column text)

def readNodeKind (line : Nat) : Option String → Except ReadError (Option NodeKind)
  | none => .ok none
  | some text =>
    match NodeKind.ofKeyword? text with
    | some kind => .ok (some kind)
    | none => .error (.invalidNodeType line text)

def Header.row (h : Header) (line : Nat) (fields : List String) : Except ReadError Row := do
  let some property := h.cell fields .propertyId | .error (.missingProperty line)
  let nodeKind ← readNodeKind line (h.cell fields .valueNodeType)
  let mandatory ← readFlag line .mandatory (h.cell fields .mandatory)
  let repeatable ← readFlag line .repeatable (h.cell fields .repeatable)
  return {
    shape := h.cell fields .shapeId
    shapeLabel := h.cell fields .shapeLabel
    statement := {
      property, mandatory, repeatable, nodeKind, line
      label := h.cell fields .propertyLabel
      datatype := h.cell fields .valueDatatype
      valueShape := h.cell fields .valueShape } }

def recordTexts (r : Record) : Except ReadError (List String) := r.texts.mapError .malformed

def ending (failure : Option String) : Except ReadError Unit :=
  match failure with
  | none => .ok ()
  | some message => .error (.source message)

def rowsOf (h : Header) (failure : Option String) : List Record → Traced ReadError (List Row)
  | [] => do
    ending failure
    return []
  | r :: rest => do
    let fields ← recordTexts r
    if isBlankRecord fields then rowsOf h failure rest
    else
      let row ← h.row r.start.line fields
      Traced.report (.rowRead row.statement.line row.statement.property)
      return row :: (← rowsOf h failure rest)

def headerOf (failure : Option String) : List Record → Except ReadError (Header × List Record)
  | [] => do
    ending failure
    .error .missingHeader
  | r :: rest => do
    let fields ← recordTexts r
    if isBlankRecord fields then headerOf failure rest
    else return (← Header.ofFields fields, rest)

def read (d : Dialect) (source : Source) : Traced ReadError (List Row) := do
  let (header, records) ← headerOf source.failureMet (Table.records d source)
  let rows ← rowsOf header source.failureMet records
  Traced.report (.tableRead rows.length)
  return rows

def readText (d : Dialect) (text : String) : Traced ReadError (List Row) :=
  read d { bytes := Text.utf8 text }

end TabularShapes.Profile
