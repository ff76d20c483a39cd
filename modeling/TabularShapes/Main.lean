import TabularShapes.CommandLine.Run

/-! The program: a run on the real files. -/

open TabularShapes TabularShapes.CommandLine

namespace TabularShapes.Program

def killedCode : Nat := 134

def fileError : IO.Error → FileError
  | .noFileOrDirectory .. => .notFound
  | .inappropriateType _ 20 _ => .notADirectory
  | .inappropriateType .. => .isADirectory
  | .invalidArgument _ 36 _ => .nameTooLong
  | e => .other e.toString

def eventJson (e : Log.Event) : Json :=
  let details := e.details.map fun (key, value) =>
    match value with
    | .text s => (key, Json.text s)
    | .count n => (key, Json.number n)
  .object [("level", .text e.level.name),
    ("fields", .object (("message", .text e.message) :: details)), ("target", .text e.target)]

def eventText (e : Log.Event) : String :=
  let details := e.details.map fun (key, value) =>
    match value with
    | .text s => " " ++ key ++ "=" ++ s
    | .count n => " " ++ key ++ "=" ++ toString n
  e.level.name ++ " " ++ e.target ++ ": " ++ e.message ++ String.join details

def settle {α : Type} (json : Bool) (filter : Log.Filter) (x : Traced Failure α) :
    IO (Except Failure α) := do
  for e in x.events do
    if filter.shows e then
      IO.eprintln (if json then (eventJson e).print 0 else eventText e)
  return x.result

/-- The table in the bytes that were read. What keeps it from being read to its end is part of it. -/
def sourceOf : Except IO.Error ByteArray → Table.Source
  | .error e => { bytes := [], failure := some (fileError e).message }
  | .ok bytes => { bytes := bytes.toList }

def source (file : Option String) : IO (Except Failure Table.Source) := do
  match file with
  | none => return .ok (sourceOf (← (← IO.getStdin).readBinToEnd.toBaseIO))
  | some path =>
    match ← (IO.FS.Handle.mk path .read).toBaseIO with
    | .error e => return .error (.cannotOpen path (fileError e))
    | .ok handle => return .ok (sourceOf (← handle.readBinToEnd.toBaseIO))

def deliver (output : Option String) (text : String) : IO (Except Failure Unit) := do
  match output with
  | none =>
    match ← (IO.print text).toBaseIO with
    | .error e => return .error (.cannotPrint (fileError e))
    | .ok () => return .ok ()
  | some path =>
    match ← (IO.FS.writeFile path text).toBaseIO with
    | .error e => return .error (.cannotWrite path (fileError e))
    | .ok () => return .ok ()

def convert (o : Options) (filter : Log.Filter) : IO (Except Failure Unit) := do
  match ← settle o.jsonLogs filter o.plan with
  | .error f => return .error f
  | .ok plan =>
    match ← source plan.file with
    | .error f => return .error f
    | .ok table =>
      match ← settle o.jsonLogs filter (plan.text addressSpace table) with
      | .error f => return .error f
      | .ok text => deliver plan.output text

end TabularShapes.Program

def main (args : List String) : IO UInt32 := do
  match Options.ofArguments args with
  | .error .help => IO.print helpText; return 0
  | .error .version => IO.print versionText; return 0
  | .error .misuse => IO.eprintln "error: the arguments are not understood, see --help"; return 2
  | .ok o =>
    match Log.Filter.ofSetting? (← IO.getEnv "RUST_LOG") with
    | none =>
      IO.eprintln "the log setting is cut inside a character"
      return Failure.breakCode.toUInt32
    | some filter =>
      match ← Program.convert o filter with
      | .ok () => return 0
      | .error failure =>
        IO.eprint (failure.report?.elim (failure.message ++ "\n") ("Error: " ++ ·))
        return (failure.code?.getD Program.killedCode).toUInt32
