/-! How deep the parts of a pattern are nested. An atom has no depth, a part that is repeated or put
between brackets is one level above what it holds, and so are parts that stand side by side. -/

namespace TabularShapes.Pattern

def maxDepth : Nat := 250

/-- The depth of parts side by side; a single part has only its own. -/
def together : List Nat → Nat
  | [] => 0
  | [depth] => depth
  | depths => depths.foldl max 0 + 1

structure Bracket where
  /-- The depth of what the last operator comes after. -/
  before : Option Nat := none
  /-- The depths of the parts since then, the last one first. -/
  parts : List Nat := []
deriving DecidableEq, Repr

namespace Bracket

def depth (b : Bracket) : Nat :=
  match b.before with
  | none => together b.parts
  | some d => max d (together b.parts) + 1

def add (b : Bracket) (depth : Nat) : Bracket := { b with parts := depth :: b.parts }

def combine (b : Bracket) : Bracket := { before := some b.depth }

end Bracket

end TabularShapes.Pattern
