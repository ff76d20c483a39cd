import TabularShapes.NodeKind

/-! The rows of an application profile. A row constrains one property, and may name the shape that
the property belongs to. -/

namespace TabularShapes.Profile

structure Statement where
  property : String
  label : Option String := none
  mandatory : Bool := false
  repeatable : Bool := false
  nodeKind : Option NodeKind := none
  datatype : Option String := none
  valueShape : Option String := none
  /-- The line of the row in its table. -/
  line : Nat := 0
deriving DecidableEq, Repr

/-- A row. Without a shape it belongs to the shape of the row before. -/
structure Row where
  shape : Option String := none
  shapeLabel : Option String := none
  statement : Statement
deriving DecidableEq, Repr

end TabularShapes.Profile
