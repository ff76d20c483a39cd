import TabularShapes.Json.Basic
import TabularShapes.Schema.Basic

/-! The JSON syntax: the document of a schema as a JSON value. Names are written as the IRIs that
they stand for; a name whose abbreviation is undeclared stays as it is. -/

namespace TabularShapes

namespace Document

/-- The context that gives the keys of the document their meaning. -/
def context : String := "http://www.w3.org/ns/shex.jsonld"

def typed (type : String) (members : List (String × Json)) : Json :=
  .object (("type", .text type) :: members)

/-- What the values have to be: a shape by its name, other requirements as an object, and no
member if anything is allowed. -/
def value (m : PrefixMap) : Value → List (String × Json)
  | .datatype n => [("valueExpr", typed "NodeConstraint" [("datatype", .text (n.identity m))])]
  | .nodeKind k => [("valueExpr", typed "NodeConstraint" [("nodeKind", .text k.jsonName)])]
  | .reference n => [("valueExpr", .text (n.identity m))]
  | .any => []

/-- The number of occurrences, `-1` for no bound; exactly one is left out. -/
def cardinality (c : Cardinality) : List (String × Json) :=
  match c with
  | .one | .requiredOne => []
  | _ => [("min", .number c.min), ("max", .number (c.max?.elim (-1) Int.ofNat))]

def constraint (m : PrefixMap) (c : Constraint) : Json :=
  typed "TripleConstraint"
    (("predicate", .text (c.predicate.identity m)) :: value m c.value ++ cardinality c.cardinality)

/-- The constraints of a shape: none is left out, one stands by itself, more are listed. -/
def expression (m : PrefixMap) : List Constraint → List (String × Json)
  | [] => []
  | [c] => [("expression", constraint m c)]
  | cs => [("expression", typed "EachOf" [("expressions", .array (cs.map (constraint m)))])]

def declaration (m : PrefixMap) (d : Declaration) : Json :=
  typed "ShapeDecl"
    [("id", .text (d.id.identity m)), ("shapeExpr", typed "Shape" (expression m d.constraints))]

/-- The declarations of a schema; none are left out. -/
def shapes (m : PrefixMap) : List Declaration → List (String × Json)
  | [] => []
  | ds => [("shapes", .array (ds.map (declaration m)))]

end Document

def Schema.document (s : Schema) : Json :=
  .object
    (("@context", .text Document.context) :: ("type", .text "Schema") ::
      Document.shapes s.prefixes s.declarations)

end TabularShapes
