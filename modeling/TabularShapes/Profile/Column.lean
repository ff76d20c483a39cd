import TabularShapes.Table.Decoding
import TabularShapes.Text.Blank

/-! The header of a profile says which column holds what. Columns stand in any order, columns with
other titles are ignored, and of two columns with the same title the first counts. -/

namespace TabularShapes.Profile

inductive Column
  | shapeId | shapeLabel | propertyId | propertyLabel | mandatory | repeatable | valueNodeType
  | valueDatatype | valueShape
deriving DecidableEq, Repr

def Column.title : Column → String
  | shapeId => "shapeId"
  | shapeLabel => "shapeLabel"
  | propertyId => "propertyId"
  | propertyLabel => "propertyLabel"
  | mandatory => "Mandatory"
  | repeatable => "Repeatable"
  | valueNodeType => "valueNodeType"
  | valueDatatype => "valueDatatype"
  | valueShape => "valueShape"

inductive ReadError
  | missingHeader
  | missingColumn (column : Column)
  | missingProperty (line : Nat)
  | invalidBoolean (line : Nat) (column : Column) (value : String)
  | invalidNodeType (line : Nat) (value : String)
  | malformed (fault : Table.Malformation)
  /-- The source of the table failed. -/
  | source (message : String)
deriving DecidableEq, Repr

namespace ReadError

def message : ReadError → String
  | missingHeader => "The DCTAP profile is empty: a header line is required"
  | missingColumn column =>
    s!"The DCTAP header does not declare the required column '{column.title}'"
  | missingProperty line => s!"Row at line {line} has no propertyId"
  | invalidBoolean line column value =>
    s!"Invalid boolean '{value}' in column {column.title} at line {line}: expected true or false"
  | invalidNodeType line value =>
    s!"Invalid node type '{value}' at line {line}: expected IRI, BNODE, LITERAL or NONLITERAL"
  | malformed fault => s!"Malformed DCTAP table: {fault.message}"
  | source message => message

def line? : ReadError → Option Nat
  | missingProperty line | invalidBoolean line _ _ | invalidNodeType line _ => some line
  | malformed fault => some fault.start.line
  | missingHeader | missingColumn _ | source _ => none

end ReadError

structure Header where
  titles : List String
deriving DecidableEq, Repr

namespace Header

/-- The header that the fields of a record make. The column of properties is required. -/
def ofFields (fields : List String) : Except ReadError Header :=
  let titles := fields.map Text.trim
  if Column.propertyId.title ∈ titles then .ok ⟨titles⟩ else .error (.missingColumn .propertyId)

def place? (h : Header) (c : Column) : Option Nat := h.titles.findIdx? (· == c.title)

/-- The text in a column without the white space around it; nothing if the column is not there, the
record is too short for it, or no text is left. -/
def cell (h : Header) (fields : List String) (c : Column) : Option String :=
  (((h.place? c).bind (fields[·]?)).map Text.trim).filter (· ≠ "")

end Header

end TabularShapes.Profile
