import TabularShapes.Proofs.Compile.Naming

/-! Datatypes. The text of a datatype stands for the answer of the resolver if there is one, and for
the name that it reads as if there is none. An answer has to be an IRI, and a name that stands for
itself has to be declared. -/

namespace TabularShapes.Compiler

variable {c : Compiler} {text : String} {n : Name} {e : CompileError}

/-- What the resolver answers for a name. A name that is written in full is not asked for. -/
def answer? (c : Compiler) (n : Name) : Option String :=
  n.parts?.bind fun (space, ending) => c.resolver space ending

inductive DatatypeIs (c : Compiler) (text : String) : Name → Prop
  | answered {n : Name} {iri : Iri} (hr : Name.read text = .ok n)
      (ha : c.answer? n = some iri.text) : DatatypeIs c text (.full iri)
  | asRead {n : Name} (hr : Name.read text = .ok n) (ha : c.answer? n = none)
      (hd : n.Declared c.prefixes) : DatatypeIs c text n

inductive DatatypeFault (c : Compiler) (text : String) : CompileError → Prop
  | invalid {cause : NameTextError} (hr : Name.read text = .error cause) :
      DatatypeFault c text (.invalidName text cause)
  | answer {n : Name} {answer : String} {error : NameError} (hr : Name.read text = .ok n)
      (ha : c.answer? n = some answer) (hi : Name.ofIri answer = .error error) :
      DatatypeFault c text (.invalidName text (.invalid error))
  | undeclared {n : Name} {space : String} (hr : Name.read text = .ok n) (ha : c.answer? n = none)
      (hu : n.undeclared? c.prefixes = some space) :
      DatatypeFault c text (.undeclaredPrefix text space)

theorem datatype_of_unread {cause : NameTextError} (hr : Name.read text = .error cause) :
    c.datatype text = .error (.invalidName text cause) := by
  rw [datatype, parse, hr]
  rfl

theorem datatype_of_answer {answer : String} (hr : Name.read text = .ok n)
    (ha : c.answer? n = some answer) :
    c.datatype text = (Name.ofIri answer).mapError fun e => .invalidName text (.invalid e) := by
  rw [answer?] at ha
  simp [datatype, parse, hr, ha, Except.mapError, bind, Except.bind]

theorem datatype_of_silence (hr : Name.read text = .ok n) (ha : c.answer? n = none) :
    c.datatype text = c.checkDeclared text n := by
  rw [answer?] at ha
  simp [datatype, parse, hr, ha, Except.mapError, bind, Except.bind]

theorem datatype_follows (c : Compiler) (text : String) :
    match c.datatype text with
    | .ok n => c.DatatypeIs text n
    | .error e => c.DatatypeFault text e := by
  cases hr : Name.read text with
  | error cause =>
    rw [datatype_of_unread hr]
    exact .invalid hr
  | ok n =>
    cases ha : c.answer? n with
    | some answer =>
      rw [datatype_of_answer hr ha]
      cases hi : Name.ofIri answer with
      | error error => exact .answer hr ha hi
      | ok m =>
        obtain ⟨iri, rfl, rfl⟩ := Name.ofIri_eq_ok_iff.1 hi
        exact .answered hr ha
    | none =>
      rw [datatype_of_silence hr ha, checkDeclared]
      cases hu : n.undeclared? c.prefixes with
      | some space => exact .undeclared hr ha hu
      | none => exact .asRead hr ha (Name.undeclared?_eq_none_iff.1 hu)

theorem datatype_eq_ok_iff : c.datatype text = .ok n ↔ c.DatatypeIs text n := by
  refine ⟨?_, ?_⟩
  · intro h
    have hfollows := c.datatype_follows text
    rwa [h] at hfollows
  · intro h
    cases h with
    | answered hr ha =>
      rw [datatype_of_answer hr ha, Name.ofIri_text]
      rfl
    | asRead hr ha hd =>
      rw [datatype_of_silence hr ha]
      exact checkDeclared_eq_ok_iff.2 ⟨rfl, hd⟩

theorem datatype_eq_error_iff : c.datatype text = .error e ↔ c.DatatypeFault text e := by
  refine ⟨?_, ?_⟩
  · intro h
    have hfollows := c.datatype_follows text
    rwa [h] at hfollows
  · intro h
    cases h with
    | invalid hr => exact datatype_of_unread hr
    | answer hr ha hi =>
      rw [datatype_of_answer hr ha, hi]
      rfl
    | undeclared hr ha hu => rw [datatype_of_silence hr ha, checkDeclared, hu]

end TabularShapes.Compiler
