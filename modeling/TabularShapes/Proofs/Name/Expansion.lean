import TabularShapes.Name.PrefixMap
import TabularShapes.Proofs.Outcome

/-! The IRI that a name stands for. A name has one if it is written in full or uses a declared
abbreviation. -/

namespace TabularShapes.Name

variable {n : Name} {m : PrefixMap}

/-- What holds of a name that is written in full or uses a declared abbreviation. -/
def Declared (n : Name) (m : PrefixMap) : Prop :=
  ∀ space ending, n.parts? = some (space, ending) → m.declares space = true

theorem undeclared?_eq_none_iff : n.undeclared? m = none ↔ n.Declared m := by
  cases n with
  | full iri => simp [undeclared?, Declared, parts?]
  | short space ending => simp [undeclared?, Declared, parts?]

theorem exists_expand_iff : (∃ iri, n.expand m = some iri) ↔ n.Declared m := by
  cases n with
  | full iri => simp [expand, Declared, parts?]
  | short space ending =>
    cases h : m.get? space.text <;>
      simp [expand, Declared, parts?, PrefixMap.expand, PrefixMap.declares, h]

theorem declared_of_expand {iri : String} (h : n.expand m = some iri) : n.Declared m :=
  exists_expand_iff.1 ⟨iri, h⟩

theorem identity_of_expand {iri : String} (h : n.expand m = some iri) : n.identity m = iri := by
  simp [identity, h]

@[simp] theorem identity_full (iri : Iri) (m : PrefixMap) : (full iri).identity m = iri.text := rfl

theorem ofIri_eq_ok_iff {text : String} :
    ofIri text = .ok n ↔ ∃ iri : Iri, n = .full iri ∧ iri.text = text := by
  simp only [ofIri, map_eq_ok_iff, Iri.ofText_eq_ok_iff]
  refine exists_congr fun iri => ?_
  rw [and_comm, eq_comm (a := n)]

theorem ofIri_text (iri : Iri) : ofIri iri.text = .ok (.full iri) :=
  ofIri_eq_ok_iff.2 ⟨iri, rfl, rfl⟩

end TabularShapes.Name
