/-! What a run reports about itself. An event says what happened; its level, the part of the program
that it comes from and its fields follow from that. -/

namespace TabularShapes.Log

inductive Level
  | error | warn | info | debug | trace
deriving DecidableEq, Repr

namespace Level

def rank : Level → Nat
  | error => 1
  | warn => 2
  | info => 3
  | debug => 4
  | trace => 5

def name : Level → String
  | error => "ERROR"
  | warn => "WARN"
  | info => "INFO"
  | debug => "DEBUG"
  | trace => "TRACE"

end Level

inductive FieldValue
  | text (s : String)
  | count (n : Nat)
deriving DecidableEq, Repr

inductive Event
  | rowRead (line : Nat) (property : String)
  | tableRead (rows : Nat)
  | rowsGrouped (shapes : Nat)
  | profileLoaded (shapes : Nat)
  | referenceDropped (reference shape property : String)
  | schemaCompiled (shapes constraints warnings : Nat)
  | extensionUnknown (path : String)
  | profileCompiled (warnings : Nat)
deriving DecidableEq, Repr

namespace Event

def level : Event → Level
  | rowRead .. => .trace
  | referenceDropped .. | extensionUnknown .. => .warn
  | _ => .debug

/-- The part of the program that the event comes from. -/
def target : Event → String
  | rowRead .. | tableRead .. => "oxdctap::reader"
  | rowsGrouped .. => "oxdctap::shape"
  | profileLoaded .. => "dctap2shex::converter"
  | referenceDropped .. | schemaCompiled .. => "dctap2shex::compiler"
  | extensionUnknown .. | profileCompiled .. => "dctap2shex"

def message : Event → String
  | rowRead .. => "read DCTAP row"
  | tableRead .. => "read DCTAP table"
  | rowsGrouped .. => "grouped DCTAP rows into shapes"
  | profileLoaded .. => "loaded DCTAP profile"
  | referenceDropped .. => "dropping the reference to an undefined shape"
  | schemaCompiled .. => "compiled ShEx schema"
  | extensionUnknown .. =>
    "not able to guess the output format from the file extension, writing ShExC"
  | profileCompiled .. => "compiled the profile"

def details : Event → List (String × FieldValue)
  | rowRead line property => [("line", .count line), ("property", .text property)]
  | tableRead rows => [("rows", .count rows)]
  | rowsGrouped shapes => [("shapes", .count shapes)]
  | profileLoaded shapes => [("shapes", .count shapes)]
  | referenceDropped reference shape property =>
    [("reference", .text reference), ("shape", .text shape), ("property", .text property)]
  | schemaCompiled shapes constraints warnings =>
    [("shapes", .count shapes), ("constraints", .count constraints),
      ("warnings", .count warnings)]
  | extensionUnknown path => [("path", .text path)]
  | profileCompiled warnings => [("warnings", .count warnings)]

end Event

end TabularShapes.Log
