import TabularShapes.Text.Case

/-! The kinds of nodes that a table or a schema may ask for. -/

namespace TabularShapes

/-- A kind of node; non-literals are IRIs and blank nodes. -/
inductive NodeKind
  | iri | blank | literal | nonLiteral
deriving DecidableEq, Repr

namespace NodeKind

def all : List NodeKind := [iri, blank, literal, nonLiteral]

def keyword : NodeKind → String
  | iri => "IRI"
  | blank => "BNODE"
  | literal => "LITERAL"
  | nonLiteral => "NONLITERAL"

def jsonName : NodeKind → String
  | iri => "iri"
  | blank => "bnode"
  | literal => "literal"
  | nonLiteral => "nonliteral"

def ofKeyword? (text : String) : Option NodeKind :=
  all.find? fun k => Text.sameIgnoringCase k.keyword text

@[simp]
theorem ofKeyword?_keyword (k : NodeKind) : ofKeyword? k.keyword = some k := by
  cases k <;> decide

end NodeKind

end TabularShapes
