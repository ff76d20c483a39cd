import TabularShapes.CommandLine.Arguments
import TabularShapes.CommandLine.Report
import TabularShapes.Log.Filter

/-! A run of the command line. The options are made into a plan, the plan turns a table into the
text of a schema, and the text goes to standard output or into a file. Nothing is written before
all else has succeeded. -/

namespace TabularShapes.CommandLine

open Log (Event Filter)

structure Plan where
  session : Session
  layout : Layout
  file : Option String
  output : Option String

namespace Options

/-- The syntax that is asked for: by name, and else by the extension of the output file. -/
def chooseFormat (o : Options) : Traced Failure Format :=
  match o.format, o.output with
  | some name, _ => Traced.of <|
    match Format.ofName? name with
    | some format => .ok format
    | none => .error (.unknownFormat name)
  | none, none => return default
  | none, some path =>
    match (extension? path).bind Format.ofExtension? with
    | some format => return format
    | none => do
      Traced.report (.extensionUnknown path)
      return default

def chooseDelimiter (o : Options) : Except Failure UInt8 :=
  let c := o.delimiter.getD ','
  if c.toNat < 128 then .ok (UInt8.ofNat c.toNat) else .error (.wideDelimiter c)

def declare (c : Compiler) : List String → Except Failure Compiler
  | [] => .ok c
  | text :: rest =>
    match Text.cutAt '=' text.toList with
    | none => .error (.declarationForm text)
    | some (space, iri) => do
      let c ← (c.withPrefix (String.ofList space) (String.ofList iri)).mapError
        (.declarationRefused text)
      declare c rest

/-- The compiler that is asked for. Declared namespaces stand in the place of the default ones. -/
def chooseCompiler (o : Options) : Except Failure Compiler := do
  let start := if o.prefixes.isEmpty then Compiler.default else Compiler.default.withoutPrefixes
  let c ← declare start o.prefixes
  let c := if o.resolvePrefixes then { c with resolver := c.prefixes.resolver } else c
  return { c with lenient := o.lenient }

def plan (o : Options) : Traced Failure Plan := do
  let format ← o.chooseFormat
  let delimiter ← o.chooseDelimiter
  let compiler ← o.chooseCompiler
  return {
    session := { dialect := { delimiter }, compiler }
    layout := { format, indent := o.indent.getD 2, labels := o.labels, colours := o.colours }
    file := o.file
    output := o.output }

end Options

/-- The text with a line end at its end, unless it is empty or has one. -/
def endLine (text : String) : String :=
  match text.toList.getLast? with
  | none | some '\n' => text
  | some _ => text ++ "\n"

/-- The text of the schema of the session with the end of its last line, if it can be made. -/
def writeSchema (s : Session) (layout : Layout) (room : Nat) : Except Failure String :=
  match s.schema with
  | none => .error (.cannotSerialize (.notReady .write))
  | some schema => Except.mapError .cannotMake do
    let text := endLine (← schema.make layout room)
    grow room text.utf8ByteSize
    return text

def Plan.text (p : Plan) (room : Nat) (source : Table.Source) : Traced Failure String :=
  let steps : Stateful Session Failure String := do
    (Stateful.mk (·.read source)).mapError .cannotRead
    (Stateful.mk Session.compile).mapError .cannotCompile
    Stateful.report (.profileCompiled (← get).warnings.length)
    writeSchema (← get) p.layout room
  (steps.run p.session).2

/-- The number of bytes that a process has for itself at most, which is two to the 47. -/
def addressSpace : Nat := 0x800000000000

structure Surroundings where
  /-- Standard input, which may fail before its end. -/
  input : Table.Source := { bytes := [] }
  files : Files := {}
  /-- What standard output says if it takes no text. It takes a text as a whole or not at all. -/
  refusal : Option FileError := none
  /-- The number of bytes that memory has room for. -/
  room : Nat := addressSpace
  /-- The setting that says which events are shown. -/
  logSetting : Option String := none

structure Effect where
  /-- What went to standard output. -/
  output : String := ""
  /-- The place and the content of the file that was written. -/
  written : Option (Location × String) := none
deriving DecidableEq, Repr

namespace Surroundings

def source (w : Surroundings) : Option String → Except Failure Table.Source
  | none => .ok w.input
  | some path => (w.files.open? path).mapError (.cannotOpen path)

/-- Sends the text to standard output. That nothing is taken does not show in an empty text. -/
def print (w : Surroundings) (text : String) : Stateful Effect FileError Unit :=
  match w.refusal with
  | some error => if text = "" then pure () else Stateful.fail error
  | none => modify fun e => { e with output := e.output ++ text }

def deliver (w : Surroundings) (output : Option String) (text : String) :
    Stateful Effect Failure Unit :=
  match output with
  | none => (w.print text).mapError .cannotPrint
  | some path => do
    let place ← (w.files.place path).mapError (Failure.cannotWrite path)
    modify fun e => { e with written := some (place, text) }

end Surroundings

def convert (o : Options) (w : Surroundings) : Effect × Traced Failure Unit :=
  let steps : Stateful Effect Failure Unit := do
    let plan ← o.plan
    let source ← w.source plan.file
    let text ← plan.text w.room source
    w.deliver plan.output text
  steps.run {}

structure Outcome extends Effect where
  /-- The code that the run ends with; none if it is killed. -/
  code : Option Nat
  /-- The report of a run that failed. -/
  report : Option String := none
  /-- The events that were shown as JSON. -/
  events : List Event := []
deriving DecidableEq, Repr

def Outcome.ofConversion (effect : Effect) (result : Except Failure Unit) (events : List Event) :
    Outcome :=
  match result with
  | .ok () => { toEffect := effect, code := some 0, events }
  | .error failure =>
    { toEffect := effect, code := failure.code?, report := failure.report?, events }

def run (args : List String) (w : Surroundings) : Outcome :=
  match Options.ofArguments args with
  | .error .help => { toEffect := ((w.print helpText).run {}).1, code := some 0 }
  | .error .version => { toEffect := ((w.print versionText).run {}).1, code := some 0 }
  | .error .misuse => { code := some 2 }
  | .ok o =>
    match Filter.ofSetting? w.logSetting with
    | none => { code := some Failure.breakCode }
    | some filter =>
      let (effect, conversion) := convert o w
      let shown := conversion.events.filter filter.shows
      Outcome.ofConversion effect conversion.result (if o.jsonLogs then shown else [])

end TabularShapes.CommandLine
