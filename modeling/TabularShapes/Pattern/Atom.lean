/-! The smallest parts of a pattern, and which of them may stand where. Nothing is known about
characters beyond ASCII: what asks for their case, or whether they are letters, digits or white
space, is refused. So is what could match a piece of a character. -/

namespace TabularShapes.Pattern

structure Flags where
  /-- Letters match in either case. -/
  ignoreCase : Bool := false
  /-- What is matched are characters, not bytes. -/
  unicode : Bool := true
  /-- White space and comments between the parts mean nothing. -/
  verbose : Bool := false
deriving DecidableEq, Repr

def Flags.letters : List Char := ['i', 'm', 's', 'U', 'u', 'R', 'x']

/-- The settings with one of them switched. The others have no say in what may stand where. -/
def Flags.switch (f : Flags) (letter : Char) (on : Bool) : Flags :=
  match letter with
  | 'i' => { f with ignoreCase := on }
  | 'u' => { f with unicode := on }
  | 'x' => { f with verbose := on }
  | _ => f

/-- A part of a pattern that has no parts. -/
inductive Atom
  /-- A character; `byte` if it is given by the number of a byte. -/
  | literal (c : Char) (byte : Bool)
  /-- Any character but the end of a line. -/
  | any
  /-- Any digit, white space or character of words, or any other character. -/
  | sort (negated : Bool)
  /-- The start or the end of a text or a line. -/
  | edge
  /-- The start, the end or the inside of a word. -/
  | wordEdge
deriving DecidableEq, Repr

namespace Atom

def ofEscape? (c : Char) : Option Atom :=
  match c with
  | 'a' => some (.literal '\x07' false)
  | 'f' => some (.literal '\x0c' false)
  | 'n' => some (.literal '\n' false)
  | 'r' => some (.literal '\r' false)
  | 't' => some (.literal '\t' false)
  | 'v' => some (.literal '\x0b' false)
  | 'd' | 's' | 'w' => some (.sort false)
  | 'D' | 'S' | 'W' => some (.sort true)
  | 'A' | 'z' => some .edge
  | 'b' | 'B' | '<' | '>' => some .wordEdge
  | c => if c.toNat < 128 && !c.isAlphanum then some (.literal c false) else none

/-- How many digits follow the letter that announces a character given by its number. -/
def digitsAfter? : Char → Option Nat
  | 'x' => some 2
  | 'u' => some 4
  | 'U' => some 8
  | _ => none

end Atom

namespace Flags

def admits (f : Flags) : Atom → Bool
  | .literal c byte => if f.unicode then !f.ignoreCase else !byte || decide (c.toNat < 128)
  | .any => f.unicode
  | .sort negated => !f.unicode && !negated
  | .edge => true
  | .wordEdge => !f.unicode

def admitsMember (f : Flags) (c : Char) : Bool :=
  if f.unicode then !f.ignoreCase else decide (c.toNat < 128)

/-- Whether a named class of ASCII characters, or all but it, may stand between brackets. -/
def admitsNamed (f : Flags) (negated : Bool) : Bool := if f.unicode then !f.ignoreCase else !negated

end Flags

def classNames : List String :=
  ["alnum", "alpha", "ascii", "blank", "cntrl", "digit", "graph", "lower", "print", "punct",
    "space", "upper", "word", "xdigit"]

/-- Whether the characters after a bracket name a class, and whether they ask for all but it. -/
def namedClass? : List Char → Option Bool
  | ':' :: rest =>
    let negated := rest.head? == some '^'
    let rest := if negated then rest.drop 1 else rest
    let name := rest.takeWhile (· != ':')
    let isClosed := [':', ']'].isPrefixOf (rest.drop name.length)
    if classNames.contains (String.ofList name) && isClosed then some negated else none
  | _ => none

end TabularShapes.Pattern
