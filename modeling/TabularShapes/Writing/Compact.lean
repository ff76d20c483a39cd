import TabularShapes.Schema.Basic
import TabularShapes.Writing.Layout

/-! The compact syntax, as lines made of pieces. A piece that has a role may be coloured; colours
are added when the pieces are shown and change nothing else. -/

namespace TabularShapes

/-- The role of a piece of text, which decides its colour. -/
inductive Role
  | keyword | shape | predicate | value | reference | comment
deriving DecidableEq, Repr

def Role.colour : Role → String
  | keyword => "31"
  | shape => "34"
  | predicate => "32"
  | value => "35"
  | reference => "36"
  | comment => "90"

/-- A piece of text, with the role that it plays or none. -/
structure Piece where
  role : Option Role
  text : String
deriving DecidableEq, Repr

namespace Piece

def plain (text : String) : Piece := ⟨none, text⟩

/-- The text of the piece, between the signs that switch its colour on and off if colours are
asked for. -/
def shown (colours : Bool) (p : Piece) : String :=
  match colours, p.role with
  | true, some role => "\x1b[" ++ role.colour ++ "m" ++ p.text ++ "\x1b[0m"
  | _, _ => p.text

end Piece

/-- A line of the compact syntax, without the sign that ends it. -/
abbrev Line := List Piece

def Line.shown (colours : Bool) (line : Line) : String :=
  String.join (line.map (Piece.shown colours)) ++ "\n"

namespace Compact

def isSpecial (c : Char) : Bool := c == '\\' || c == '\n' || c == '\r'

/-- A character of a comment: a line break or a backslash is written as two characters. -/
def escapeChar : Char → List Char
  | '\\' => ['\\', '\\']
  | '\n' => ['\\', 'n']
  | '\r' => ['\\', 'r']
  | c => [c]

/-- The label in a form that stays on one line. A label without special characters is kept, any other
one is written anew. -/
def escape (label : String) : String :=
  if label.toList.any isSpecial then String.ofList (label.toList.flatMap escapeChar) else label

theorem escapeChar_of_not_special {c : Char} (h : isSpecial c = false) : escapeChar c = [c] := by
  unfold escapeChar
  split
  · cases h
  · cases h
  · cases h
  · rfl

theorem flatMap_escapeChar {cs : List Char} (h : cs.any isSpecial = false) :
    cs.flatMap escapeChar = cs := by
  induction cs with
  | nil => rfl
  | cons c cs ih =>
    rw [List.any_cons, Bool.or_eq_false_iff] at h
    rw [List.flatMap_cons, escapeChar_of_not_special h.1, ih h.2, List.singleton_append]

/-- A label that is kept is what it would be if it were written anew. -/
theorem toList_escape (label : String) :
    (escape label).toList = label.toList.flatMap escapeChar := by
  unfold escape
  split
  · rw [String.toList_ofList]
  · next h => rw [flatMap_escapeChar (Bool.eq_false_iff.2 h)]

/-- The comment for a label, if there is one and labels are written. -/
def comment (layout : Layout) (margin : String) (label : Option String) : List Line :=
  match layout.labels, label with
  | true, some label => [[.plain margin, ⟨some .comment, "# " ++ escape label⟩]]
  | _, _ => []

def declaration : String × String → Line
  | (space, iri) => [⟨some .keyword, "PREFIX"⟩, .plain (" " ++ space ++ ": <" ++ iri ++ ">")]

def value : Value → Piece
  | .datatype n => ⟨some .value, n.written⟩
  | .reference n => ⟨some .reference, "@" ++ n.written⟩
  | .nodeKind k => ⟨some .keyword, k.keyword⟩
  | .any => ⟨some .value, "."⟩

def cardinality (c : Cardinality) : List Piece :=
  if c.marker = "" then [] else [.plain (" " ++ c.marker)]

/-- The lines of a constraint; `last` constraints end without a semicolon. -/
def constraint (layout : Layout) (margin : String) (last : Bool) (c : Constraint) : List Line :=
  comment layout margin c.label ++
    [[.plain margin, ⟨some .predicate, c.predicate.written⟩, .plain " ", value c.value] ++
      cardinality c.cardinality ++ if last then [] else [.plain " ;"]]

def constraints (layout : Layout) (margin : String) : List Constraint → List Line
  | [] => []
  | [c] => constraint layout margin true c
  | c :: rest => constraint layout margin false c ++ constraints layout margin rest

def shape (layout : Layout) (d : Declaration) : List Line :=
  comment layout "" d.label ++
    if d.isEmpty then [[⟨some .shape, d.id.written⟩, .plain " \x7b\x7d"]]
    else
      let margin := String.ofList (List.replicate layout.indent ' ')
      [[⟨some .shape, d.id.written⟩, .plain " \x7b"]] ++
        constraints layout margin d.constraints ++ [[.plain "\x7d"]]

/-- The lines of the shapes, with an empty line between two and, if `gap` says so, before the
first. -/
def shapes (layout : Layout) (gap : Bool) : List Declaration → List Line
  | [] => []
  | d :: rest => (if gap then [[]] else []) ++ shape layout d ++ shapes layout true rest

/-- The lines of a schema: the namespaces, and the shapes with an empty line before each that is
not the first line of all. -/
def lines (layout : Layout) (s : Schema) : List Line :=
  s.prefixes.declarations.map declaration ++ shapes layout (!s.prefixes.isEmpty) s.declarations

end Compact

end TabularShapes
