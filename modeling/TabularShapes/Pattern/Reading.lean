import TabularShapes.Pattern.Atom
import TabularShapes.Pattern.Depth
import TabularShapes.Text.Blank
import TabularShapes.Text.Hexadecimal
import TabularShapes.Text.Letter

/-! Which texts are patterns: regular expressions with groups, settings, and sets of characters
between brackets. A reader goes through the text character by character and knows at which place of
a pattern it stands; it looks ahead only where a sign means one thing or another by what follows. -/

namespace TabularShapes.Pattern

structure Group where
  flags : Flags := {}
  /-- The depths of the branches before the open one. -/
  branches : List Nat := []
  /-- The depths of the parts of the open branch, the last one first. What has none cannot be
  repeated. -/
  parts : List (Option Nat) := []
deriving DecidableEq, Repr

namespace Group

def branchDepth (g : Group) : Nat := together (g.parts.map (·.getD 0))

def depth (g : Group) : Nat := together (g.branchDepth :: g.branches)

end Group

inductive Slot
  | outside
  | member
  /-- After the dash of a range. -/
  | rangeEnd (start : Char)
deriving DecidableEq, Repr

inductive Place
  | part
  /-- After a repetition, which a question mark makes modest. -/
  | repeated
  /-- After the parenthesis that opens a group. -/
  | group
  /-- After that parenthesis and a question mark. -/
  | groupKind
  /-- In the name of a group, the last character first. -/
  | groupName (read : List Char)
  /-- Among settings, the last one first, and what they amount to. -/
  | settings (read : List Char) (flags : Flags)
  /-- After an opening bracket. -/
  | bracket
  /-- After an opening bracket and the sign of negation. -/
  | bracketFirst
  /-- After the dashes at the start of a bracket. -/
  | bracketDashes
  | members
  /-- Between the two signs of an operator. -/
  | operator
  /-- In the name of a class. -/
  | className
  /-- After an atom between brackets, which may start a range. -/
  | member (a : Atom)
  /-- After the dash of a range. -/
  | rangeEnd (start : Char)
  /-- After a backslash. -/
  | escape (slot : Slot)
  /-- In the number of a character, before `left` digits. -/
  | digits (slot : Slot) (byte : Bool) (left : Nat) (value : Nat)
deriving DecidableEq, Repr

/-- Whether white space and comments may stand at the place. -/
def Place.allowsGap : Place → Bool
  | groupKind | groupName _ | settings .. | operator | className | escape _ => false
  | _ => true

def isNameChar (first : Bool) (c : Char) : Bool :=
  if first then c == '_' || Text.isLetter c
  else ['_', '.', '[', ']'].contains c || Text.isLetterOrNumber c

structure Reader where
  place : Place := .part
  /-- Whether a comment is open. -/
  comment : Bool := false
  group : Group := {}
  /-- The groups around the open one, the nearest one first. -/
  outer : List Group := []
  /-- The open brackets, the inner ones first. -/
  brackets : List Bracket := []
  /-- The names of the groups. -/
  names : List (List Char) := []
deriving DecidableEq, Repr

namespace Reader

def flags (r : Reader) : Flags := r.group.flags

/-- Adds a part that can be repeated to the open branch. -/
def addPart (r : Reader) (depth : Nat) : Reader :=
  { r with place := .part, group := { r.group with parts := some depth :: r.group.parts } }

def repeatLast? (r : Reader) : Option Reader :=
  match r.group.parts with
  | some depth :: rest =>
    some { r with place := .repeated, group := { r.group with parts := some (depth + 1) :: rest } }
  | _ => none

def nextBranch (r : Reader) : Reader :=
  let branches := r.group.branchDepth :: r.group.branches
  { r with place := .part, group := { r.group with branches, parts := [] } }

def openGroup (r : Reader) (flags : Flags) : Reader :=
  { r with place := .part, group := { flags }, outer := r.group :: r.outer }

def closeGroup? (r : Reader) : Option Reader :=
  match r.outer with
  | [] => none
  | g :: outer => some (addPart { r with group := g, outer } (r.group.depth + 1))

/-- Settings hold from here to the end of the open group. -/
def setFlags (r : Reader) (flags : Flags) : Reader :=
  { r with place := .part, group := { r.group with flags, parts := none :: r.group.parts } }

def openBracket (r : Reader) : Reader := { r with place := .bracket, brackets := {} :: r.brackets }

def addMember (r : Reader) (depth : Nat) : Reader :=
  let brackets := match r.brackets with
    | [] => []
    | b :: rest => b.add depth :: rest
  { r with place := .members, brackets }

def closeBracket (r : Reader) : Reader :=
  match r.brackets with
  | [] => r
  | [b] => addPart { r with brackets := [] } (b.depth + 1)
  | b :: rest => addMember { r with brackets := rest } (b.depth + 1)

def combine (r : Reader) : Reader :=
  let brackets := match r.brackets with
    | [] => []
    | b :: rest => b.combine :: rest
  { r with place := .operator, brackets }

def addChar? (r : Reader) (c : Char) : Option Reader :=
  if r.flags.admitsMember c then some (r.addMember 0) else none

def addAtom? (r : Reader) : Atom → Option Reader
  | .literal c _ => r.addChar? c
  | .sort negated => if r.flags.admits (.sort negated) then some (r.addMember 0) else none
  | _ => none

/-- Takes an atom. Between brackets it is added once it is known to start no range. -/
def takeAtom (r : Reader) (slot : Slot) (a : Atom) : Option Reader :=
  match slot, a with
  | .outside, a => if r.flags.admits a then some (r.addPart 0) else none
  | .member, a => some { r with place := .member a }
  | .rangeEnd start, .literal c _ =>
    if start ≤ c && r.flags.admitsMember start then r.addChar? c else none
  | .rangeEnd _, _ => none

def takePart (r : Reader) (c : Char) : Option Reader :=
  match c with
  | '(' => some { r with place := .group }
  | ')' => r.closeGroup?
  | '|' => some r.nextBranch
  | '[' => some r.openBracket
  | '*' | '+' | '?' => r.repeatLast?
  | '\x7b' => none
  | '\\' => some { r with place := .escape .outside }
  | '.' => r.takeAtom .outside .any
  | '^' | '$' => r.takeAtom .outside .edge
  | c => r.takeAtom .outside (.literal c false)

/-- Takes a character of the name of a group. No two groups have the same name. -/
def takeNameChar (r : Reader) (c : Char) (read : List Char) : Option Reader :=
  if c = '>' then
    if read.isEmpty || r.names.contains read then none
    else some (openGroup { r with names := read :: r.names } r.flags)
  else if isNameChar read.isEmpty c then some { r with place := .groupName (c :: read) }
  else none

/-- Takes a character among settings. They hold for a group, or for what is left of the one around
them; after a dash they are switched off. -/
def takeSetting (r : Reader) (c : Char) (read : List Char) (flags : Flags) : Option Reader :=
  if c = ':' || c = ')' then
    if read.head? = some '-' then none
    else if c = ':' then some (r.openGroup flags)
    else if read.isEmpty then none
    else some (r.setFlags flags)
  else if (c = '-' || Flags.letters.contains c) && !read.contains c then
    some { r with place := .settings (c :: read) (flags.switch c (!read.contains '-')) }
  else none

/-- Takes the first character of a part between brackets; `rest` follows it. -/
def takeMember (r : Reader) (c : Char) (rest : List Char) : Option Reader :=
  if c = ']' then some r.closeBracket
  else if c = '[' then
    match namedClass? rest with
    | none => some r.openBracket
    | some negated =>
      if r.flags.admitsNamed negated then some { r.addMember 0 with place := .className } else none
  else if ['&', '-', '~'].contains c && rest.head? == some c then some r.combine
  else if c = '\\' then some { r with place := .escape .member }
  else r.takeAtom .member (.literal c false)

/-- Takes the first character after an opening bracket and the sign of negation. Dashes stand for
themselves there, and so does a closing bracket. -/
def takeFirst (r : Reader) (c : Char) (rest : List Char) : Option Reader :=
  if c = '-' then (r.addChar? c).map fun r => { r with place := .bracketDashes }
  else if c = ']' then r.addChar? c
  else r.takeMember c rest

/-- The sign that tells whether a dash before it makes a range: the next one, or in a verbose
pattern the next one that is not white space, one number sign passed over. -/
def signAhead? (r : Reader) (rest : List Char) : Option Char :=
  if r.flags.verbose then
    match rest.dropWhile Text.isBlank with
    | '#' :: rest => (rest.dropWhile Text.isBlank).head?
    | cs => cs.head?
  else rest.head?

def takeAfterMember (r : Reader) (a : Atom) (c : Char) (rest : List Char) : Option Reader :=
  let ahead := r.signAhead? rest
  if c = '-' && ahead != some ']' && ahead != some '-' then
    match a with
    | .literal start _ => some { r with place := .rangeEnd start }
    | _ => none
  else (r.addAtom? a).bind (·.takeMember c rest)

def takeDigit (r : Reader) (c : Char) (slot : Slot) (byte : Bool) (left value : Nat) :
    Option Reader := do
  let value := 16 * value + (← Text.hexDigit? c)
  if left > 1 then return { r with place := .digits slot byte (left - 1) value }
  else if value.isValidChar then r.takeAtom slot (.literal (Char.ofNat value) byte)
  else none

def takeEscape (r : Reader) (c : Char) (slot : Slot) : Option Reader :=
  match Atom.digitsAfter? c with
  | some count => some { r with place := .digits slot (c == 'x') count 0 }
  | none => (Atom.ofEscape? c).bind (r.takeAtom slot)

/-- Takes a character that is no white space and opens no comment; `rest` follows it. -/
def take (r : Reader) (c : Char) (rest : List Char) : Option Reader :=
  match r.place with
  | .part => r.takePart c
  | .repeated => if c = '?' then some { r with place := .part } else r.takePart c
  | .group =>
    if c = '?' then some { r with place := .groupKind } else (r.openGroup r.flags).takePart c
  | .groupKind =>
    if c = '<' then some { r with place := .groupName [] }
    else if c = 'P' && rest.head? == some '<' then some r
    else r.takeSetting c [] r.flags
  | .groupName read => r.takeNameChar c read
  | .settings read flags => r.takeSetting c read flags
  | .bracket =>
    if c = '^' then if r.flags.unicode then some { r with place := .bracketFirst } else none
    else r.takeFirst c rest
  | .bracketFirst => r.takeFirst c rest
  | .bracketDashes =>
    if c = '-' then (r.addChar? c).map fun r => { r with place := .bracketDashes }
    else r.takeMember c rest
  | .members => r.takeMember c rest
  | .operator => some { r with place := .members }
  | .className => some (if c = ']' then { r with place := .members } else r)
  | .member a => r.takeAfterMember a c rest
  | .rangeEnd start =>
    if c = '\\' then some { r with place := .escape (.rangeEnd start) }
    else r.takeAtom (.rangeEnd start) (.literal c false)
  | .escape slot => r.takeEscape c slot
  | .digits slot byte left value => r.takeDigit c slot byte left value

def feed (r : Reader) (c : Char) (rest : List Char) : Option Reader :=
  if r.comment then some { r with comment := c != '\n' }
  else if r.flags.verbose && r.place.allowsGap && (Text.isBlank c || c == '#') then
    some { r with comment := c == '#', place := if r.place = .repeated then .part else r.place }
  else r.take c rest

/-- The state after the characters, if they can be the start of a pattern. -/
def read (r : Reader) : List Char → Option Reader
  | [] => some r
  | c :: rest =>
    match r.feed c rest with
    | none => none
    | some r => read r rest

def isFinished (r : Reader) : Bool :=
  (r.place = .part || r.place = .repeated) && r.outer.isEmpty &&
    decide (r.group.depth ≤ maxDepth)

end Reader

def isValid (cs : List Char) : Bool := ((Reader.read {} cs).map Reader.isFinished).getD false

end TabularShapes.Pattern
