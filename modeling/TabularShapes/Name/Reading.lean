import TabularShapes.Name.Basic
import TabularShapes.Text.Cut

/-! Names as people write them in tables. What stands between `<` and `>` or holds `://` is an IRI,
other text with a colon is an abbreviated name, and the rest is a local name of the empty
abbreviation. -/

namespace TabularShapes

inductive NameTextError
  | empty
  | invalid (error : NameError)
deriving DecidableEq, Repr

def NameTextError.message : NameTextError → String
  | .empty => "empty name"
  | .invalid error => error.message

def betweenAngles? : List Char → Option (List Char)
  | '<' :: rest => if rest.getLast? = some '>' then some rest.dropLast else none
  | _ => none

/-- The name that text which is not empty stands for. -/
def Name.ofText (text : String) : Except NameError Name :=
  match betweenAngles? text.toList with
  | some iri => Name.ofIri (String.ofList iri)
  | none =>
    if Text.contains "://".toList text.toList then Name.ofIri text
    else match Text.cutAt ':' text.toList with
      | some (space, ending) => Name.ofParts (String.ofList space) (String.ofList ending)
      | none => Name.ofLocal text

def Name.read (text : String) : Except NameTextError Name :=
  if text = "" then .error .empty else (Name.ofText text).mapError .invalid

end TabularShapes
