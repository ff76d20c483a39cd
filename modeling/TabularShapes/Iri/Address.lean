import TabularShapes.Iri.Character
import TabularShapes.Text.Cut
import TabularShapes.Text.Decimal

/-! The addresses that may stand between brackets in place of a host name. An IPv6 address has eight
groups of up to four hexadecimal digits; `::` stands for at least one group of zeros, and the last
two groups may be written as an IPv4 address. -/

namespace TabularShapes.Iri

open Text (digitsValue isDecimal splitAt)

def isGroup (cs : List Char) : Bool :=
  !cs.isEmpty && decide (cs.length ≤ 4) && cs.all isHexDigit

/-- A number of an IPv4 address: at most 255, and no zero before another digit. -/
def isOctet : List Char → Bool
  | ['0'] => true
  | '0' :: _ => false
  | cs => isDecimal cs && decide (cs.length ≤ 3) && decide (digitsValue cs ≤ 255)

def isIpv4 (cs : List Char) : Bool :=
  let octets := splitAt '.' cs
  octets.length == 4 && octets.all isOctet

/-- How many groups the parts amount to, none if one of them is no group. With `tail` the last
part may be an IPv4 address, which amounts to two. -/
def countGroups (tail : Bool) : List (List Char) → Option Nat
  | [] => some 0
  | [last] => if isGroup last then some 1 else if tail && isIpv4 last then some 2 else none
  | part :: parts => if isGroup part then (countGroups tail parts).map (· + 1) else none

/-- How many groups the text between two ends amounts to; empty text has none. -/
def groupsIn (tail : Bool) : List Char → Option Nat
  | [] => some 0
  | cs => countGroups tail (splitAt ':' cs)

def cutAtGap : List Char → Option (List Char × List Char)
  | ':' :: ':' :: rest => some ([], rest)
  | c :: rest => (cutAtGap rest).map fun (a, b) => (c :: a, b)
  | [] => none

def isIpv6 (cs : List Char) : Bool :=
  match cutAtGap cs with
  | none => groupsIn true cs == some 8
  | some (head, tail) =>
    match groupsIn false head, groupsIn true tail with
    | some m, some n => decide (m + n ≤ 7)
    | _, _ => false

/-- The first character that keeps the text from being an address of a future version: `v`, a
version in hexadecimal, a point, and then at least one plain character or colon. The text ends at
the closing bracket, which is the offender when something is missing at the end. -/
def futureFault? (cs : List Char) : Option Char :=
  let version := (cs.drop 1).takeWhile isHexDigit
  match (cs.drop 1).dropWhile isHexDigit with
  | [] => some ']'
  | c :: rest =>
    if c ≠ '.' then some c
    else match version, rest with
      | [], c :: _ => some c
      | _, [] => some ']'
      | _, rest => rest.find? fun c => !(isPlainAscii c || c == ':')

end TabularShapes.Iri
