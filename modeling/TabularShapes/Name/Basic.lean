import TabularShapes.Iri.Check
import TabularShapes.Text.Letter

/-! Names of shapes, properties and datatypes: absolute IRIs, and local names under a declared
abbreviation (`xsd:string`). Each type holds valid text only, so a name that exists can be
written. -/

namespace TabularShapes

open Text (isLetter isLetterOrNumber)

/-- Whether the characters may abbreviate a namespace: nothing, or a letter followed by letters,
numbers, `_`, `-` and `.`, without a point at the end. -/
def isPrefixName : List Char → Bool
  | [] => true
  | c :: rest =>
    isLetter c && rest.all (fun c => isLetterOrNumber c || c == '_' || c == '-' || c == '.') &&
      (c :: rest).getLast? != some '.'

/-- Whether the characters may follow the colon: nothing, or a letter, number, `_` or `:` followed
by letters, numbers, `_`, `-`, `.` and `:`, without a point at the end. -/
def isLocalName : List Char → Bool
  | [] => true
  | c :: rest =>
    (isLetterOrNumber c || c == '_' || c == ':') &&
      rest.all (fun c => isLetterOrNumber c || c == '_' || c == '-' || c == '.' || c == ':') &&
      (c :: rest).getLast? != some '.'

def isIri (cs : List Char) : Bool := (Iri.check cs).isOk

structure Iri where
  text : String
  valid : isIri text.toList = true
deriving DecidableEq

structure PrefixName where
  text : String
  valid : isPrefixName text.toList = true
deriving DecidableEq

structure LocalName where
  text : String
  valid : isLocalName text.toList = true
deriving DecidableEq

/-- A name, written in full or abbreviated. An abbreviated name is kept as it is written. -/
inductive Name
  | full (iri : Iri)
  | short (space : PrefixName) (ending : LocalName)
deriving DecidableEq

inductive NameError
  | invalidIri (text : String) (fault : Iri.Fault)
  | invalidPrefix (text : String)
  | invalidLocal (text : String)
deriving DecidableEq, Repr

def NameError.message : NameError → String
  | .invalidIri text fault => s!"Invalid IRI '{text}': {fault.message}"
  | .invalidPrefix text => s!"Invalid prefix name '{text}'"
  | .invalidLocal text => s!"Invalid local name '{text}'"

def NameError.causes : NameError → List String
  | .invalidIri _ fault => fault.message :: fault.cause?.toList
  | _ => []

theorem isIri_of_check {cs : List Char} (h : Iri.check cs = .ok ()) : isIri cs = true := by
  simp [isIri, h, Except.isOk, Except.toBool]

def Iri.ofText (text : String) : Except NameError Iri :=
  match h : Iri.check text.toList with
  | .ok () => .ok ⟨text, isIri_of_check h⟩
  | .error fault => .error (.invalidIri text fault)

def PrefixName.ofText (text : String) : Except NameError PrefixName :=
  if h : isPrefixName text.toList = true then .ok ⟨text, h⟩ else .error (.invalidPrefix text)

def LocalName.ofText (text : String) : Except NameError LocalName :=
  if h : isLocalName text.toList = true then .ok ⟨text, h⟩ else .error (.invalidLocal text)

theorem Iri.ofText_eq_ok_iff {text : String} {iri : Iri} :
    Iri.ofText text = .ok iri ↔ iri.text = text := by
  unfold Iri.ofText
  split
  · next hc => cases iri; simp [eq_comm]
  · next hc =>
    refine ⟨fun h => (by cases h), ?_⟩
    rintro rfl
    have hvalid := iri.valid
    simp [isIri, hc, Except.isOk, Except.toBool] at hvalid

theorem PrefixName.ofText_eq_ok_iff {text : String} {space : PrefixName} :
    PrefixName.ofText text = .ok space ↔ space.text = text := by
  unfold PrefixName.ofText
  split
  · next hv => cases space; simp [eq_comm]
  · next hv =>
    refine ⟨fun h => (by cases h), ?_⟩
    rintro rfl
    exact absurd space.valid hv

def Name.ofIri (text : String) : Except NameError Name := (Iri.ofText text).map .full

def Name.ofParts (space ending : String) : Except NameError Name := do
  return .short (← PrefixName.ofText space) (← LocalName.ofText ending)

def Name.ofLocal (ending : String) : Except NameError Name := Name.ofParts "" ending

/-- The name as it stands in a schema text: `<iri>` or `space:ending`. -/
def Name.written : Name → String
  | .full iri => "<" ++ iri.text ++ ">"
  | .short space ending => space.text ++ ":" ++ ending.text

def Name.iri? : Name → Option String
  | .full iri => some iri.text
  | .short _ _ => none

def Name.parts? : Name → Option (String × String)
  | .full _ => none
  | .short space ending => some (space.text, ending.text)

/-- Names in full stand before abbreviated ones. IRIs are ordered by their code points, abbreviated
names by their abbreviation and then by what follows it. -/
instance : Ord Name where
  compare
    | .full a, .full b => compare a.text b.text
    | .full _, .short _ _ => .lt
    | .short _ _, .full _ => .gt
    | .short p a, .short q b => (compare p.text q.text).then (compare a.text b.text)

end TabularShapes
