import TabularShapes.Text.Case

/-! Numbers in decimal digits. -/

namespace TabularShapes.Text

/-- The number that the digits write, the first one counting most. -/
def digitsValue (cs : List Char) : Nat := cs.foldl (fun n c => 10 * n + (c.toNat - 48)) 0

def isDecimal (cs : List Char) : Bool := !cs.isEmpty && cs.all Char.isDigit

/-- The number that the characters write, a plus sign before the digits allowed. -/
def unsigned? (cs : List Char) : Option Nat :=
  let digits := match cs with
    | '+' :: rest => rest
    | cs => cs
  if isDecimal digits then some (digitsValue digits) else none

def dropSign : List Char → List Char
  | '+' :: rest | '-' :: rest => rest
  | cs => cs

/-- Whether the characters are digits, with at most one point before, after or between them. -/
def isMantissa (cs : List Char) : Bool :=
  let whole := cs.takeWhile Char.isDigit
  match cs.dropWhile Char.isDigit with
  | [] => !whole.isEmpty
  | c :: rest => c == '.' && rest.all Char.isDigit && !(whole.isEmpty && rest.isEmpty)

/-- Whether the characters write a real number: a sign or none, and then digits with or without a
point and an exponent, or the word for infinity or for no number. -/
def isReal (cs : List Char) : Bool :=
  let size := dropSign cs
  let isExponentSign := fun c => c == 'e' || c == 'E'
  let words := ["inf", "infinity", "nan"]
  words.any (sameIgnoringCase · (String.ofList size)) ||
    isMantissa (size.takeWhile (!isExponentSign ·)) &&
      match size.dropWhile (!isExponentSign ·) with
      | [] => true
      | _ :: exponent => isDecimal (dropSign exponent)

end TabularShapes.Text
