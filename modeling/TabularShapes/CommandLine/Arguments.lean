import TabularShapes.Text.Decimal

/-! The arguments of the command line. Options are given at most once, apart from declarations of
namespaces, and their values stand in the same argument or in the next one. An argument that starts
with `-` is never the value of the option before it, unless it is `-` alone; after `--` every
argument is a file. -/

namespace TabularShapes.CommandLine

/-- What is asked of a conversion. -/
structure Options where
  file : Option String := none
  output : Option String := none
  format : Option String := none
  indent : Option Nat := none
  delimiter : Option Char := none
  /-- Declarations of namespaces, as written. -/
  prefixes : List String := []
  labels : Bool := false
  colours : Bool := false
  lenient : Bool := false
  resolvePrefixes : Bool := false
  jsonLogs : Bool := false
deriving DecidableEq, Repr

inductive Stop
  | help
  | version
  | misuse
deriving DecidableEq, Repr

inductive Setting
  | output | format | indent | delimiter | declaration
deriving DecidableEq, Repr

inductive Switch
  | labels | colours | lenient | resolvePrefixes | jsonLogs | help | version
deriving DecidableEq, Repr

def Setting.ofName? : String → Option Setting
  | "output" => some .output
  | "format" => some .format
  | "indent" => some .indent
  | "delimiter" => some .delimiter
  | "prefix" => some .declaration
  | _ => none

def Switch.ofName? : String → Option Switch
  | "labels" => some .labels
  | "color" => some .colours
  | "lenient" => some .lenient
  | "resolve-prefixes" => some .resolvePrefixes
  | "json-logs" => some .jsonLogs
  | "help" => some .help
  | "version" => some .version
  | _ => none

def Setting.ofLetter? : Char → Option Setting
  | 'o' => some .output
  | 'f' => some .format
  | 'd' => some .delimiter
  | _ => none

def Switch.ofLetter? : Char → Option Switch
  | 'h' => some .help
  | 'V' => some .version
  | _ => none

/-- The number that the text writes, which has to fit into 64 bits. -/
def readSize? (text : String) : Option Nat := (Text.unsigned? text.toList).filter (· < UInt64.size)

namespace Options

def once {α : Type} (old : Option α) (new : Option α) : Except Stop (Option α) :=
  match old, new with
  | none, some a => .ok (some a)
  | _, _ => .error .misuse

def path? (text : String) : Option String := if text = "" then none else some text

def char? (text : String) : Option Char :=
  match text.toList with
  | [c] => some c
  | _ => none

def give (o : Options) (value : String) : Setting → Except Stop Options
  | .output => return { o with output := ← once o.output (path? value) }
  | .format => return { o with format := ← once o.format (some value) }
  | .indent => return { o with indent := ← once o.indent (readSize? value) }
  | .delimiter => return { o with delimiter := ← once o.delimiter (char? value) }
  | .declaration => return { o with prefixes := o.prefixes ++ [value] }

/-- The switch `old` turned on, which has to be off. -/
def on (old : Bool) : Except Stop Bool := if old then .error .misuse else .ok true

def turn (o : Options) : Switch → Except Stop Options
  | .labels => return { o with labels := ← on o.labels }
  | .colours => return { o with colours := ← on o.colours }
  | .lenient => return { o with lenient := ← on o.lenient }
  | .resolvePrefixes => return { o with resolvePrefixes := ← on o.resolvePrefixes }
  | .jsonLogs => return { o with jsonLogs := ← on o.jsonLogs }
  | .help => .error .help
  | .version => .error .version

def giveFile (o : Options) (value : String) : Except Stop Options :=
  return { o with file := ← once o.file (path? value) }

def giveFiles (o : Options) : List String → Except Stop Options
  | [] => .ok o
  | value :: rest => do (← o.giveFile value).giveFiles rest

end Options

inductive Form
  /-- `--`. -/
  | terminator
  /-- `--name` or `--name=value`. -/
  | long (name : String) (value : Option String)
  /-- `-x`, and what stands after the letter. -/
  | short (letter : Char) (rest : List Char)
  /-- All else. -/
  | operand
deriving DecidableEq, Repr

/-- The name before the first `=`, and the value after it if there is one. -/
def cutValue (cs : List Char) : String × Option String :=
  match cs.dropWhile (· != '=') with
  | [] => (String.ofList cs, none)
  | _ :: value => (String.ofList (cs.takeWhile (· != '=')), some (String.ofList value))

def Form.of (arg : String) : Form :=
  match arg.toList with
  | ['-', '-'] => .terminator
  | '-' :: '-' :: cs => let (name, value) := cutValue cs; .long name value
  | '-' :: c :: rest => .short c rest
  | _ => .operand

/-- The value that stands in the same argument as a letter; an equals sign before it is dropped. -/
def attached? : List Char → Option String
  | [] => none
  | '=' :: value => some (String.ofList value)
  | value => some (String.ofList value)

/-- What an argument asks for: a setting with its value if that stands in the same argument, or a
switch. -/
inductive Ask
  | setting (s : Setting) (value : Option String)
  | switch (s : Switch)
  | file
  | files
deriving DecidableEq, Repr

def Ask.of? (arg : String) : Option Ask :=
  match Form.of arg with
  | .terminator => some .files
  | .operand => some .file
  | .long name value =>
    match Setting.ofName? name, Switch.ofName? name, value with
    | some s, _, value => some (.setting s value)
    | none, some s, none => some (.switch s)
    | _, _, _ => none
  | .short letter rest =>
    match Setting.ofLetter? letter, Switch.ofLetter? letter with
    | some s, _ => some (.setting s (attached? rest))
    | none, some s => some (.switch s)
    | none, none => none

def Options.take (o : Options) : List String → Except Stop Options
  | [] => .ok o
  | arg :: rest =>
    match Ask.of? arg with
    | none => .error .misuse
    | some (.switch s) => do (← o.turn s).take rest
    | some .file => do (← o.giveFile arg).take rest
    | some .files => o.giveFiles rest
    | some (.setting s (some value)) => do (← o.give value s).take rest
    | some (.setting s none) =>
      match rest with
      | [] => .error .misuse
      | value :: rest =>
        match Form.of value with
        | .operand => do (← o.give value s).take rest
        | _ => .error .misuse

def Options.ofArguments (args : List String) : Except Stop Options := Options.take {} args

def versionText : String := "dctap2shex 0.1.0\n"

def helpText : String :=
"Converts DCTAP application profiles into ShEx schemas

Usage: dctap2shex [OPTIONS] [FILE]

Arguments:
  [FILE]  File to read the profile from, standard input if there is none

Options:
  -o, --output <OUTPUT>        File to write the schema to, standard output if there is none
  -f, --format <FORMAT>        The output format, by name, extension or media type
      --indent <INDENT>        Number of spaces of each indentation level [default: 2]
      --labels                 Writes shape and property labels as ShExC comments
      --color                  Highlights the ShExC output with ANSI colors
      --lenient                Drops references to undefined shapes instead of failing
  -d, --delimiter <DELIMITER>  Field delimiter of the profile [default: ,]
      --prefix <NAME=IRI>      Prefix declaration of the schema, can be repeated
      --resolve-prefixes       Expands the datatypes written with a declared prefix
      --json-logs              Writes the logs as JSON lines
  -h, --help                   Print help
  -V, --version                Print version
"

end TabularShapes.CommandLine
