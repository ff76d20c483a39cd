import TabularShapes.Compile.Compiler
import TabularShapes.Log.Stateful
import TabularShapes.Profile.Reading
import TabularShapes.Writing.Write

/-! A session reads a profile, compiles it and writes the schema, one step at a time. It holds the
last profile that was read and the schema that was compiled from it. -/

namespace TabularShapes

/-- A step that needs the result of another one. -/
inductive Step
  | compile | write
deriving DecidableEq, Repr

inductive SessionError
  | notReady (step : Step)
  | read (error : Profile.ReadError)
  | group (error : Profile.OrphanRow)
  | compile (error : CompileError)
deriving DecidableEq

def SessionError.message : SessionError → String
  | .notReady .compile => "Not able to compile the profile: no profile has been read"
  | .notReady .write => "Not able to serialize the schema: no schema has been compiled"
  | .read error => error.message
  | .group error => error.message
  | .compile error => error.message

inductive Stage
  | empty | hasProfile | hasSchema
deriving DecidableEq, Repr

/-- A session, with the settings for the steps to come. -/
structure Session where
  dialect : Table.Dialect := {}
  compiler : Compiler := .default
  profile : Option (List Profile.Shape) := none
  compiled : Option (Schema × List Warning) := none

namespace Session

def stage (s : Session) : Stage :=
  match s.profile, s.compiled with
  | _, some _ => .hasSchema
  | some _, none => .hasProfile
  | none, none => .empty

def schema (s : Session) : Option Schema := s.compiled.map (·.1)

/-- What the compilation let pass; nothing without a schema. -/
def warnings (s : Session) : List Warning := s.compiled.elim [] (·.2)

def reset (s : Session) : Session := { s with profile := none, compiled := none }

def shapesOf (d : Table.Dialect) (source : Table.Source) :
    Traced SessionError (List Profile.Shape) := do
  let rows ← (Profile.read d source).mapError .read
  (Profile.group rows).mapError .group

/-- Reads a profile in the place of the one before, the schema of which is dropped. -/
def read (s : Session) (source : Table.Source) : Session × Traced SessionError Unit :=
  let steps : Stateful Session SessionError Unit := do
    let shapes ← shapesOf s.dialect source
    Stateful.report (.profileLoaded shapes.length)
    modify fun s => { s with profile := some shapes, compiled := none }
  steps.run s

def compile (s : Session) : Session × Traced SessionError Unit :=
  let steps : Stateful Session SessionError Unit :=
    match s.profile with
    | none => Stateful.fail (.notReady .compile)
    | some shapes => do
      let compiled ← (s.compiler.compile shapes).mapError SessionError.compile
      modify fun s => { s with compiled := some compiled }
  steps.run s

def write (s : Session) (layout : Layout) : Except SessionError String :=
  match s.schema with
  | none => .error (.notReady .write)
  | some schema => .ok (schema.write layout)

/-- Reads, compiles and writes a profile, up to the first of these steps that fails. -/
def convert (s : Session) (source : Table.Source) (layout : Layout) :
    Session × Traced SessionError String :=
  let steps : Stateful Session SessionError String := do
    Stateful.mk (·.read source)
    Stateful.mk compile
    (← get).write layout
  steps.run s

end Session

end TabularShapes
