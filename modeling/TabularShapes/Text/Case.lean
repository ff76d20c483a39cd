/-! Comparison of keywords without regard to the case of the letters `A` to `Z`. Letters outside
ASCII are compared as they are. -/

namespace TabularShapes.Text

/-- Whether the texts agree once `A` to `Z` are written small. -/
def sameIgnoringCase (a b : String) : Bool :=
  a.toList.map Char.toLower == b.toList.map Char.toLower

@[simp]
theorem sameIgnoringCase_self (a : String) : sameIgnoringCase a a = true := by
  simp [sameIgnoringCase]

end TabularShapes.Text
