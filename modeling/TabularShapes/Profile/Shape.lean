import TabularShapes.Log.Traced
import TabularShapes.Profile.Row

/-! The shapes of a profile: the rows that belong together. A row that names a shape opens it or
comes back to it, and rows without a shape go on with the one before. Shapes stand in the order in
which they were first named. -/

namespace TabularShapes.Profile

open Log (Event)

structure Shape where
  id : String
  /-- The first label on a row that names the shape. -/
  label : Option String := none
  statements : List Statement := []
  /-- The line of the row that names the shape first. -/
  line : Nat := 0
deriving DecidableEq, Repr

structure OrphanRow where
  /-- The number of rows before. -/
  position : Nat
  line : Nat
deriving DecidableEq, Repr

def OrphanRow.message (e : OrphanRow) : String :=
  s!"Row {e.position} (line {e.line}) has no shapeId and there is no previous shape to continue"

/-- The shapes with a statement added to the one called `id`, which gets the label if it has none. A
shape that is not there yet is opened at the end. -/
def addStatement (id : String) (label : Option String) (st : Statement) : List Shape → List Shape
  | [] => [⟨id, label, [st], st.line⟩]
  | s :: rest =>
    if s.id = id then
      { s with label := s.label.or label, statements := s.statements ++ [st] } :: rest
    else s :: addStatement id label st rest

/-- The shapes so far, and the name of the one that the last row belongs to. -/
structure Grouping where
  shapes : List Shape := []
  current : Option String := none

/-- Adds the row at the given position. The label on a row without a shape does not count. -/
def Grouping.add (g : Grouping) (position : Nat) (row : Row) : Except OrphanRow Grouping :=
  match row.shape, g.current with
  | some id, _ => .ok ⟨addStatement id row.shapeLabel row.statement g.shapes, some id⟩
  | none, some id => .ok ⟨addStatement id none row.statement g.shapes, some id⟩
  | none, none => .error ⟨position, row.statement.line⟩

def Grouping.addAll (g : Grouping) (position : Nat) : List Row → Except OrphanRow Grouping
  | [] => .ok g
  | row :: rest => do (← g.add position row).addAll (position + 1) rest

def groupRows (rows : List Row) : Except OrphanRow (List Shape) :=
  (Grouping.addAll {} 0 rows).map (·.shapes)

def group (rows : List Row) : Traced OrphanRow (List Shape) := do
  let shapes ← groupRows rows
  Traced.report (.rowsGrouped shapes.length)
  return shapes

end TabularShapes.Profile
