import TabularShapes.Text.Utf8
import TabularShapes.Writing.Compact
import TabularShapes.Writing.Document

/-! The text of a schema in either syntax, sent to where a number of bytes fits, and made in a memory
that has room for a number of bytes. -/

namespace TabularShapes

def Schema.write (s : Schema) (layout : Layout) : String :=
  match layout.format with
  | .shexC => String.join ((Compact.lines layout s).map (Line.shown layout.colours))
  | .shexJ => s.document.print layout.indent

/-- The text of the schema where it fits into `room` bytes; where it does not, only the bytes at
its start are written, and there is no result. -/
def Schema.writeWithin (s : Schema) (layout : Layout) (room : Nat) : Option String :=
  let text := s.write layout
  if text.utf8ByteSize ≤ room then some text else none

/-- Whether some line of the text has a margin. In the JSON syntax one has unless all is on a single
line; in the compact syntax the constraints have. -/
def Schema.hasMargin (s : Schema) (layout : Layout) : Bool :=
  match layout.format with
  | .shexC => s.declarations.any (!·.isEmpty)
  | .shexJ => layout.indent != 0

inductive SizeError
  /-- It is longer than any text. -/
  | tooLong
  /-- It does not fit into memory. -/
  | noRoom
deriving DecidableEq, Repr

/-- The greatest number of bytes in a text. -/
def maxBytes : Nat := UInt64.size / 2 - 1

/-- Asks for so many bytes at once. -/
def reserve (room size : Nat) : Except SizeError Unit :=
  if maxBytes < size then .error .tooLong
  else if room < size then .error .noRoom
  else .ok ()

/-- Asks for so many bytes one after the other, up to the first that is not to be had. -/
def grow (room size : Nat) : Except SizeError Unit := reserve room (min size (min maxBytes room + 1))

/-- The text of the schema, if it can be made. The margin is made before the lines that have it. -/
def Schema.make (s : Schema) (layout : Layout) (room : Nat) : Except SizeError String := do
  if s.hasMargin layout then reserve room layout.indent
  let text := s.write layout
  grow room text.utf8ByteSize
  return text

end TabularShapes
