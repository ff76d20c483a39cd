import TabularShapes.Text.Blank
import TabularShapes.Text.Case
import TabularShapes.Text.Cut

/-! The syntaxes in which a schema is written, and the choices left to whoever writes it. -/

namespace TabularShapes

inductive Format
  /-- The compact syntax, for people. -/
  | shexC
  /-- The JSON syntax, for programs. -/
  | shexJ
deriving DecidableEq, Repr, Inhabited

namespace Format

def name : Format → String
  | shexC => "ShExC"
  | shexJ => "ShExJ"

def mediaType : Format → String
  | shexC => "text/shex"
  | shexJ => "application/shex+json"

def extension : Format → String
  | shexC => "shex"
  | shexJ => "json"

def extensions : List (String × Format) :=
  [("shex", shexC), ("shexc", shexC), ("json", shexJ), ("shexj", shexJ), ("jsonld", shexJ)]

def ofExtension? (text : String) : Option Format :=
  (extensions.find? fun (e, _) => Text.sameIgnoringCase e text).map (·.2)

/-- The syntax for a media type, whatever its case and its parameters. -/
def ofMediaType? (text : String) : Option Format :=
  let essence := Text.trim (String.ofList (text.toList.takeWhile (· != ';')))
  [shexC, shexJ].find? fun f => Text.sameIgnoringCase f.mediaType essence

/-- The syntax for an extension, a short name or else a media type. -/
def ofName? (text : String) : Option Format := (ofExtension? text).or (ofMediaType? text)

end Format

/-- How a schema is written. Labels and colours are for the compact syntax only; in the JSON syntax
no indentation means a single line. -/
structure Layout where
  format : Format := .shexC
  /-- The number of spaces of each level of indentation. -/
  indent : Nat := 2
  /-- Whether labels are written as comments. -/
  labels : Bool := false
  /-- Whether the parts of the text are coloured. -/
  colours : Bool := false
deriving DecidableEq, Repr

end TabularShapes
