import TabularShapes.Log.Event
import TabularShapes.Pattern.Reading
import TabularShapes.Text.Case
import TabularShapes.Text.Cut
import TabularShapes.Text.Decimal
import TabularShapes.Text.Slice

/-! Which events are shown. A filter is a list of directives between commas; a directive gives a
level to everything, or to the parts of the program whose names start with its target. Of the
directives that fit an event the most specific decides. Directives about spans of time are
understood and have no effect, as there are no spans. -/

namespace TabularShapes.Log

structure Directive where
  /-- What the target of the event starts with. -/
  target : Option String := none
  /-- Fields that the event has to have. -/
  fields : List String := []
  /-- The greatest rank that is shown; 0 shows nothing. -/
  rank : Nat := Level.trace.rank
deriving DecidableEq, Repr

abbrev Filter := List Directive

/-- What a directive says: a level for events, or something about spans. -/
inductive Clause
  | events (d : Directive)
  | spans
deriving DecidableEq, Repr

inductive Fault
  | notUnderstood
  /-- A piece of the text begins or ends inside a character. -/
  | insideCharacter
deriving DecidableEq, Repr

namespace Directive

def rankOfNumber? (cs : List Char) : Option Nat :=
  (Text.unsigned? cs).filter (· ≤ Level.trace.rank)

def rankOfName? (text : String) : Option Nat :=
  let names := ("off", 0) ::
    [Level.error, .warn, .info, .debug, .trace].map fun l => (l.name, l.rank)
  (names.find? fun (n, _) => Text.sameIgnoringCase n text).map (·.2)

def rank? (cs : List Char) : Option Nat :=
  (rankOfNumber? cs).or (rankOfName? (String.ofList cs))

/-- What is right of a place in a directive: each character with the number of bytes before it. The
signs that divide a directive are looked for in the text without the white space around it, and the
pieces between them are cut at the same numbers of bytes out of the text itself. The two differ when
white space stands at the start. -/
abbrev Marks := List (Nat × Char)

/-- The first sign that `p` holds of, with the number of bytes before it, and what follows it. -/
def findSign (p : Char → Bool) (marks : Marks) : Except Fault (Nat × Char × Marks) :=
  match marks.dropWhile (!p ·.2) with
  | [] => .error .notUnderstood
  | (i, c) :: rest => .ok (i, c, rest)

def piece (p : Option (List Char)) : Except Fault (List Char) :=
  p.elim (.error .insideCharacter) .ok

/-- The rank from a place to the end of the text; nothing there stands for everything. -/
def rankFrom (text : List Char) (start : Nat) : Except Fault Nat := do
  let level ← piece (Text.dropBytes? start text)
  if level.isEmpty then return Level.trace.rank
  else (rank? level).elim (.error .notUnderstood) .ok

/-- The rank after the bracket that closes a span, where nothing may follow, or `=` and a level. -/
def rankAfterSpan (text : List Char) : Marks → Except Fault Nat
  | [] => .ok Level.trace.rank
  | (i, '=') :: _ => rankFrom text (i + 1)
  | _ => .error .notUnderstood

/-- Whether the text is the name of a field, or a name, `=`, and a number or a pattern. -/
def isField (text : List Char) : Bool :=
  !text.isEmpty &&
    match Text.splitAt '=' text with
    | _ :: value :: _ => Text.isReal value || Pattern.isValid value
    | _ => true

/-- Reads a directive after the bracket of a span, before which there are `start` bytes: the name of
a span, or a field between braces. A directive that asks for a field only is one about events too,
unless it asks for its value. -/
def readSpan (text : List Char) (target : Option String) (start : Nat) (marks : Marks) :
    Except Fault Clause := do
  let (i, sign, rest) ← findSign (fun c => c == ']' || c == '\x7b') marks
  let span ← piece (Text.slice? text start i)
  if sign == ']' then
    let _ ← rankAfterSpan text rest
    return .spans
  else
    let (j, _, rest) ← findSign (· == '\x7d') rest
    let field ← piece (Text.slice? text (i + 1) j)
    if !isField field then .error .notUnderstood
    else match rest with
      | (_, ']') :: rest =>
        let rank ← rankAfterSpan text rest
        if span.isEmpty && !field.contains '=' then
          return .events { target, fields := [String.ofList field], rank }
        else return .spans
      | _ => .error .notUnderstood

def read (text : List Char) : Except Fault Clause := do
  match Text.marks 0 (Text.trimChars text) with
  | [] => .error .notUnderstood
  | (_, '[') :: rest => readSpan text none 1 rest
  | (_, c) :: rest =>
    if !(Text.isLetterOrNumber c || c == '-' || c == ':' || c == '_') then .error .notUnderstood
    else match findSign (fun c => c == '=' || c == '[') rest with
      | .error _ =>
        match rank? text with
        | some rank => return .events { rank }
        | none => return .events { target := some (String.ofList text) }
      | .ok (i, sign, rest) =>
        let target := some (String.ofList (← piece (Text.slice? text 0 i)))
        if sign == '=' then return .events { target, rank := ← rankFrom text (i + 1) }
        else readSpan text target (i + 1) rest

def fits (d : Directive) (e : Event) : Bool :=
  d.target.all (fun t => t.toList.isPrefixOf e.target.toList) &&
    d.fields.all fun f => f == "message" || e.details.any (·.1 == f)

/-- How specific the directive is: by the length of its target, then by its fields. -/
def weight (d : Directive) : Nat × Nat := (d.target.elim 0 (·.length + 1), d.fields.length)

/-- Whether the directive decides where both fit. Of equals the later one decides. -/
def outweighs (d e : Directive) : Bool :=
  let (a, b) := d.weight
  let (a', b') := e.weight
  decide (a' < a) || (a == a' && (decide (b' < b) ||
    (b == b' && (List.compareLex compare e.fields d.fields).isLE)))

end Directive

namespace Filter

def warnings : Filter := [{ rank := Level.warn.rank }]

/-- The filter that the text writes; the first fault counts. -/
def ofText (text : String) : Except Fault Filter := do
  let parts := (Text.splitAt ',' text.toList).filter (!·.isEmpty)
  let clauses ← parts.mapM Directive.read
  return clauses.filterMap fun
    | .events d => some d
    | .spans => none

/-- The filter for a setting. Warnings are shown if there is none or it is not understood; a setting
that is cut inside a character has no filter at all. -/
def ofSetting? (setting : Option String) : Option Filter :=
  match setting.map ofText with
  | none | some (.error .notUnderstood) => some warnings
  | some (.error .insideCharacter) => none
  | some (.ok f) => some f

def decisive? (f : Filter) (e : Event) : Option Directive :=
  (f.filter (·.fits e)).foldl (fun best d =>
    match best with
    | none => some d
    | some b => if d.outweighs b then some d else some b) none

def shows (f : Filter) (e : Event) : Bool :=
  (f.decisive? e).any fun d => decide (e.level.rank ≤ d.rank)

end Filter

end TabularShapes.Log
