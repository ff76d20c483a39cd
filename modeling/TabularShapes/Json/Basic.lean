/-! JSON values and their text. Only what schema documents need is here: text, whole numbers, arrays
and objects whose members keep their order. -/

namespace TabularShapes

inductive Json
  | text (s : String)
  | number (n : Int)
  | array (items : List Json)
  | object (members : List (String × Json))

namespace Json

def hexDigit (n : Nat) : Char := Char.ofNat (if n < 10 then 48 + n else 87 + n)

/-- A character between quotation marks: quotation marks, backslashes and control characters are
escaped, all else stands for itself. -/
def escapeChar (c : Char) : List Char :=
  match c with
  | '"' => ['\\', '"']
  | '\\' => ['\\', '\\']
  | '\n' => ['\\', 'n']
  | '\r' => ['\\', 'r']
  | '\t' => ['\\', 't']
  | '\x08' => ['\\', 'b']
  | '\x0c' => ['\\', 'f']
  | c =>
    if c.toNat < 32 then ['\\', 'u', '0', '0', hexDigit (c.toNat / 16), hexDigit (c.toNat % 16)]
    else [c]

def quote (s : String) : List Char := '"' :: s.toList.flatMap escapeChar ++ ['"']

/-- The line break before a part at the given depth; without indentation there is none. -/
def lineBreak (indent depth : Nat) : List Char :=
  if indent = 0 then [] else '\n' :: List.replicate (indent * depth) ' '

def colon (indent : Nat) : List Char := if indent = 0 then [':'] else [':', ' ']

mutual

def chars (indent depth : Nat) : Json → List Char
  | text s => quote s
  | number n => (toString n).toList
  | array [] => ['[', ']']
  | array (v :: vs) =>
    '[' :: lineBreak indent (depth + 1) ++ chars indent (depth + 1) v ++
      moreItems indent (depth + 1) vs ++ lineBreak indent depth ++ [']']
  | object [] => ['\x7b', '\x7d']
  | object ((k, v) :: ms) =>
    '\x7b' :: lineBreak indent (depth + 1) ++ quote k ++ colon indent ++
      chars indent (depth + 1) v ++ moreMembers indent (depth + 1) ms ++
      lineBreak indent depth ++ ['\x7d']

def moreItems (indent depth : Nat) : List Json → List Char
  | [] => []
  | v :: vs => ',' :: lineBreak indent depth ++ chars indent depth v ++ moreItems indent depth vs

def moreMembers (indent depth : Nat) : List (String × Json) → List Char
  | [] => []
  | (k, v) :: ms =>
    ',' :: lineBreak indent depth ++ quote k ++ colon indent ++ chars indent depth v ++
      moreMembers indent depth ms

end

/-- The text of the value, on one line if `indent` is 0 and else with that many spaces for each
level of indentation. -/
def print (indent : Nat) (v : Json) : String := String.ofList (v.chars indent 0)

end Json

end TabularShapes
