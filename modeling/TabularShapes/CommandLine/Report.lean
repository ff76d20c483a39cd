import TabularShapes.CommandLine.Files
import TabularShapes.Session

/-! How a run that fails tells why: a message, and under it what lies behind it. -/

namespace TabularShapes.CommandLine

inductive Failure
  | unknownFormat (name : String)
  | wideDelimiter (c : Char)
  | declarationForm (text : String)
  | declarationRefused (text : String) (error : NameError)
  | cannotOpen (path : String) (error : FileError)
  | cannotRead (error : SessionError)
  | cannotCompile (error : SessionError)
  | cannotSerialize (error : SessionError)
  /-- The run breaks off, or is killed, without a report. -/
  | cannotMake (error : SizeError)
  | cannotPrint (error : FileError)
  | cannotWrite (path : String) (error : FileError)
deriving DecidableEq

namespace Failure

def message : Failure → String
  | unknownFormat name => s!"The output format '{name}' is unknown"
  | wideDelimiter c => s!"The delimiter '{c}' is not an ASCII character"
  | declarationForm text => s!"The prefix declaration '{text}' is not of the form NAME=IRI"
  | declarationRefused text _ => s!"Invalid prefix declaration {text}"
  | cannotOpen path _ => s!"Not able to open {path}"
  | cannotRead _ => "Not able to read the profile"
  | cannotCompile _ => "Not able to compile the profile"
  | cannotSerialize error => error.message
  | cannotMake .tooLong => "The schema is longer than any text"
  | cannotMake .noRoom => "The schema does not fit into memory"
  | cannotPrint error => error.message
  | cannotWrite path _ => s!"Not able to write {path}"

def causes : Failure → List String
  | declarationRefused _ error => error.message :: error.causes
  | cannotOpen _ error | cannotWrite _ error => [error.message]
  | cannotRead error | cannotCompile error => [error.message]
  | _ => []

/-- The text with each of its lines after the first set in by `margin`. -/
def indentLines (margin : List Char) (text : String) : List Char :=
  text.toList.flatMap fun c => if c = '\n' then '\n' :: margin else [c]

/-- The number of a cause, set to the right of five places. -/
def numbered (n : Nat) : List Char :=
  let digits := (toString n).toList
  List.replicate (5 - digits.length) ' ' ++ digits ++ [':', ' ']

def causeLines (n : Nat) : List String → List Char
  | [] => []
  | cause :: rest =>
    '\n' :: numbered n ++ indentLines (List.replicate 7 ' ') cause ++ causeLines (n + 1) rest

/-- The message, and the causes under a heading if there are any. Several causes are numbered. -/
def fullMessage (f : Failure) : String :=
  let margin := List.replicate 4 ' '
  let heading := "\n\nCaused by:"
  f.message ++
    (match f.causes with
      | [] => ""
      | [cause] => heading ++ String.ofList ('\n' :: margin ++ indentLines margin cause)
      | causes => heading ++ String.ofList (causeLines 0 causes)) ++ "\n"

def report? (f : Failure) : Option String :=
  match f with
  | cannotMake _ => none
  | f => some f.fullMessage

def breakCode : Nat := 101

/-- The code of a run that fails, unless it is killed. -/
def code? : Failure → Option Nat
  | cannotMake .tooLong => some breakCode
  | cannotMake .noRoom => none
  | _ => some 1

end Failure

end TabularShapes.CommandLine
