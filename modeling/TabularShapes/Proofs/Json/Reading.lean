import TabularShapes.Json.Basic
import TabularShapes.Text.Decimal
import TabularShapes.Text.Hexadecimal
import Mathlib.Algebra.Field.Rat
import Mathlib.Algebra.Order.Ring.Rat

/-! What a JSON text means. A scanner cuts the text into tokens, one character at a time, and a
parser with a stack of open arrays and objects puts the tokens together. Numbers are exact, and an
object is what it gives for each key: the order of its members does not count, and of two members
with one key the later one holds. -/

namespace TabularShapes.Json

inductive Datum
  | null
  | bool (b : Bool)
  | number (q : ℚ)
  | text (s : String)
  | array (items : List Datum)
  | object (member? : String → Option Datum)

def Datum.ofMembers (members : List (String × Datum)) : Datum :=
  .object fun key => members.reverse.lookup key

inductive Token
  | arrayOpen | arrayClose | objectOpen | objectClose | comma | colon
  | text (s : String)
  /-- A number, a truth value or nothing. -/
  | scalar (d : Datum)

/-! ### Scalars -/

def digits? (cs : List Char) : Option Nat :=
  if Text.isDecimal cs then some (Text.digitsValue cs) else none

/-- The digits before the point. Only a zero that stands by itself comes first. -/
def whole? : List Char → Option (List Char)
  | '0' :: rest => if rest = [] then some ['0'] else none
  | cs => if Text.isDecimal cs then some cs else none

def fraction? : List Char → Option (List Char)
  | [] => some []
  | _ :: cs => if Text.isDecimal cs then some cs else none

def exponent? : List Char → Option Int
  | [] => some 0
  | _ :: '-' :: cs => (digits? cs).map fun n => -n
  | _ :: '+' :: cs => (digits? cs).map Int.ofNat
  | _ :: cs => (digits? cs).map Int.ofNat

/-- The number without a sign: digits, a fraction after a point, an exponent after an `e`. -/
def unsigned? (cs : List Char) : Option ℚ := do
  let isExponentSign := fun c => c == 'e' || c == 'E'
  let mantissa := cs.takeWhile (!isExponentSign ·)
  let whole ← whole? (mantissa.takeWhile (· != '.'))
  let fraction ← fraction? (mantissa.dropWhile (· != '.'))
  let exponent ← exponent? (cs.dropWhile (!isExponentSign ·))
  return Text.digitsValue (whole ++ fraction) * 10 ^ (exponent - fraction.length)

def number? : List Char → Option ℚ
  | '-' :: cs => (unsigned? cs).map (- ·)
  | cs => unsigned? cs

def scalar? (cs : List Char) : Option Datum :=
  if cs = "null".toList then some .null
  else if cs = "true".toList then some (.bool true)
  else if cs = "false".toList then some (.bool false)
  else (number? cs).map .number

/-! ### Tokens -/

/-- Where the scanner stands. Characters that have been taken are held with the last one first. -/
inductive Mode
  | outside
  /-- In a number or one of the words `null`, `true` and `false`. -/
  | word (taken : List Char)
  | text (taken : List Char)
  /-- In a text, after a backslash. -/
  | escape (taken : List Char)
  /-- Among the four digits of an escape; `high?` is the first half of a pair. -/
  | hex (taken : List Char) (high? : Option Nat) (digits : List Nat)
  /-- After the first half of a pair: the escape of the second half has to come. -/
  | high (taken : List Char) (half : Nat)
  | highEscape (taken : List Char) (half : Nat)

def isSpace (c : Char) : Bool := c == ' ' || c == '\t' || c == '\n' || c == '\r'

def isWordChar (c : Char) : Bool := c.isAlphanum || c == '+' || c == '-' || c == '.'

def sign? : Char → Option Token
  | '[' => some .arrayOpen
  | ']' => some .arrayClose
  | '\x7b' => some .objectOpen
  | '\x7d' => some .objectClose
  | ',' => some .comma
  | ':' => some .colon
  | _ => none

def escaped? : Char → Option Char
  | '"' => some '"'
  | '\\' => some '\\'
  | '/' => some '/'
  | 'b' => some '\x08'
  | 'f' => some '\x0c'
  | 'n' => some '\n'
  | 'r' => some '\r'
  | 't' => some '\t'
  | _ => none

/-- Takes the number that four digits make: a character, the first half of a pair, or its second
half. No half stands alone. -/
def takeUnit (taken : List Char) (high? : Option Nat) (n : Nat) : Option Mode :=
  let isHigh := 0xD800 ≤ n ∧ n < 0xDC00
  let isLow := 0xDC00 ≤ n ∧ n < 0xE000
  match high? with
  | none =>
    if isHigh then some (.high taken n)
    else if isLow then none
    else some (.text (Char.ofNat n :: taken))
  | some half =>
    if isLow then
      some (.text (Char.ofNat (0x10000 + (half - 0xD800) * 0x400 + (n - 0xDC00)) :: taken))
    else none

def feedOutside (c : Char) : Option (Mode × List Token) :=
  match sign? c with
  | some t => some (.outside, [t])
  | none =>
    if isSpace c then some (.outside, [])
    else if c = '"' then some (.text [], [])
    else if isWordChar c then some (.word [c], [])
    else none

def Mode.feed : Mode → Char → Option (Mode × List Token)
  | .outside, c => feedOutside c
  | .word taken, c =>
    if isWordChar c then some (.word (c :: taken), [])
    else do
      let d ← scalar? taken.reverse
      let (mode, ts) ← feedOutside c
      return (mode, .scalar d :: ts)
  | .text taken, c =>
    if c = '"' then some (.outside, [.text (String.ofList taken.reverse)])
    else if c = '\\' then some (.escape taken, [])
    else if c.toNat < 0x20 then none
    else some (.text (c :: taken), [])
  | .escape taken, c =>
    if c = 'u' then some (.hex taken none [], [])
    else (escaped? c).map fun c => (.text (c :: taken), [])
  | .hex taken high? digits, c => do
    let n ← Text.hexDigit? c
    let digits := digits ++ [n]
    if digits.length < 4 then return (.hex taken high? digits, [])
    else return (← takeUnit taken high? (digits.foldl (16 * · + ·) 0), [])
  | .high taken half, c => if c = '\\' then some (.highEscape taken half, []) else none
  | .highEscape taken half, c => if c = 'u' then some (.hex taken (some half) [], []) else none

def Mode.finish : Mode → Option (List Token)
  | .outside => some []
  | .word taken => (scalar? taken.reverse).map fun d => [.scalar d]
  | _ => none

def scan (mode : Mode) : List Char → Option (List Token)
  | [] => mode.finish
  | c :: cs => do
    let (mode, ts) ← mode.feed c
    return ts ++ (← scan mode cs)

/-! ### Values -/

/-- An array or object that is not closed yet, with what it holds so far. -/
inductive Frame
  | items (before : List Datum)
  | member (before : List (String × Datum)) (key : String)

mutual

/-- Reads the value that comes first, and goes on with what is open around it. -/
def parse (outer : List Frame) : List Token → Option Datum
  | .text s :: ts => parseAfter outer (.text s) ts
  | .scalar d :: ts => parseAfter outer d ts
  | .arrayOpen :: .arrayClose :: ts => parseAfter outer (.array []) ts
  | .arrayOpen :: ts => parse (.items [] :: outer) ts
  | .objectOpen :: .objectClose :: ts => parseAfter outer (.ofMembers []) ts
  | .objectOpen :: .text key :: .colon :: ts => parse (.member [] key :: outer) ts
  | _ => none

/-- Goes on after the value `d`. -/
def parseAfter : List Frame → Datum → List Token → Option Datum
  | [], d, [] => some d
  | .items before :: outer, d, .comma :: ts => parse (.items (before ++ [d]) :: outer) ts
  | .items before :: outer, d, .arrayClose :: ts => parseAfter outer (.array (before ++ [d])) ts
  | .member before k :: outer, d, .comma :: .text key :: .colon :: ts =>
    parse (.member (before ++ [(k, d)]) key :: outer) ts
  | .member before k :: outer, d, .objectClose :: ts =>
    parseAfter outer (.ofMembers (before ++ [(k, d)])) ts
  | _, _, _ => none

end

def read (text : String) : Option Datum := (scan .outside text.toList).bind (parse [])

/-- Two halves make one character, and the later of two members holds. -/
example : (read "\x7b\"a\": 1, \"a\": [\"\\ud83d\\ude00\", true]\x7d").bind
    (fun d => match d with | .object member? => member? "a" | _ => none) =
      some (.array [.text "😀", .bool true]) := by
  rfl

/-- No comma ends an array, no zero starts a longer number, and no half of a pair stands alone. -/
example : read "[true,]" = none ∧ read "01" = none ∧ read "\"\\ud83d\"" = none :=
  ⟨rfl, rfl, rfl⟩

end TabularShapes.Json
