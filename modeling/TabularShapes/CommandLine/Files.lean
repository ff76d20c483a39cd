import TabularShapes.Table.Scanner
import TabularShapes.Text.Cut

/-! The files that a run finds, and what it is told when it opens one of them. A path is walked name
by name, and each name but the last has to lead to a directory. -/

namespace TabularShapes.CommandLine

inductive FileError
  | notFound
  | notADirectory
  | isADirectory
  | nameTooLong
  | other (message : String)
deriving DecidableEq, Repr

def FileError.message : FileError → String
  | notFound => "No such file or directory (os error 2)"
  | notADirectory => "Not a directory (os error 20)"
  | isADirectory => "Is a directory (os error 21)"
  | nameTooLong => "File name too long (os error 36)"
  | other message => message

def pathNames (path : String) : List String :=
  ((Text.splitAt '/' path.toList).filter (· ≠ [])).map String.ofList

/-- The names on a path, without the ones that lead nowhere else. -/
def plainNames (path : String) : List String := (pathNames path).filter (· ≠ ".")

/-- The extension of the file that a path leads to: what stands after the last point of its name, if
anything stands before that point. -/
def extension? (path : String) : Option String :=
  match (plainNames path).getLast? with
  | none => none
  | some name =>
    if name = ".." then none
    else
      let ending := name.toList.reverse.takeWhile (· != '.')
      match name.toList.reverse.dropWhile (· != '.') with
      | [] | [_] => none
      | _ => some (String.ofList ending.reverse)

/-- A place for a file: the names of the directories on the way to it from the root, and its own. -/
abbrev Location := List String

inductive Entry
  | file (content : List UInt8)
  | directory
deriving DecidableEq, Repr

structure Files where
  /-- Files, and directories that hold none of them. -/
  entries : List (Location × Entry) := []
  /-- The directory where the run happens. -/
  home : Location := []
deriving DecidableEq, Repr

namespace Files

/-- The files with the given paths and contents, and the directory where the paths start. -/
def ofList (files : List (String × List UInt8)) (home : Location := []) : Files :=
  ⟨files.map fun (path, content) => (home ++ plainNames path, .file content), home⟩

/-- What stands at the location. The ways to an entry and to the run's directory lead through
directories. -/
def entry? (f : Files) (l : Location) : Option Entry :=
  (f.entries.lookup l).or <|
    if l.isPrefixOf f.home || f.entries.any (fun (m, _) => l.isPrefixOf m) then some .directory
    else none

def maxName : Nat := 255

/-- The number of bytes that is too great for a path. -/
def pathLimit : Nat := 4096

def enter (f : Files) (l : Location) (name : String) : Except FileError Location :=
  match f.entry? l with
  | none => .error .notFound
  | some (.file _) => .error .notADirectory
  | some .directory =>
    if name = "." then .ok l
    else if name = ".." then .ok l.dropLast
    else if name.utf8ByteSize ≤ maxName then .ok (l ++ [name])
    else .error .nameTooLong

def walk (f : Files) (path : String) (names : List String) : Except FileError Location :=
  if path.utf8ByteSize < pathLimit then
    names.foldlM f.enter (if path.toList.head? = some '/' then [] else f.home)
  else .error .nameTooLong

def asksDirectory (path : String) : Bool := path.toList.getLast? == some '/'

/-- The table that the file holds. A directory can be opened and not read. -/
def open? (f : Files) (path : String) : Except FileError Table.Source := do
  let ending := if asksDirectory path then ["."] else []
  let l ← f.walk path (pathNames path ++ ending)
  match f.entry? l with
  | none => .error .notFound
  | some .directory => return { bytes := [], failure := some FileError.isADirectory.message }
  | some (.file bytes) => return { bytes }

def place (f : Files) (path : String) : Except FileError Location := do
  if asksDirectory path then
    let _ ← f.walk path ((pathNames path).dropLast ++ ["."])
    .error .isADirectory
  else
    let l ← f.walk path (pathNames path)
    if f.entry? l = some .directory then .error .isADirectory else return l

end Files

end TabularShapes.CommandLine
