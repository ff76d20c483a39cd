import TabularShapes.Compile.Compiler
import TabularShapes.Proofs.Iri.Characters
import TabularShapes.Text.Cut

/-! Names and namespaces as they are written. The text of a name determines it: what stands between
angle brackets is an IRI, and the first colon of other text ends the abbreviation. -/

namespace TabularShapes

open Text (isLetter isLetterOrNumber)

def isNameChar (c : Char) : Bool :=
  isLetterOrNumber c || c == '_' || c == '-' || c == '.' || c == ':'

variable {cs : List Char} {c : Char}

theorem isLetterOrNumber_of_isLetter (h : isLetter c = true) : isLetterOrNumber c = true := by
  simp [isLetterOrNumber, h]

theorem mem_prefixName (h : isPrefixName cs = true) (hc : c ∈ cs) :
    isNameChar c = true ∧ c ≠ ':' := by
  cases cs with
  | nil => cases hc
  | cons d cs =>
    simp only [isPrefixName, Bool.and_eq_true, List.all_eq_true] at h
    obtain ⟨⟨hd, hall⟩, -⟩ := h
    have hcolon : isLetterOrNumber ':' = false := by decide
    rcases List.mem_cons.1 hc with rfl | hc
    · have hl := isLetterOrNumber_of_isLetter hd
      refine ⟨by simp [isNameChar, hl], ?_⟩
      rintro rfl
      rw [hcolon] at hl
      cases hl
    · have hr := hall c hc
      simp only [Bool.or_eq_true, beq_iff_eq] at hr
      rcases hr with ((hr | rfl) | rfl) | rfl
      · refine ⟨by simp [isNameChar, hr], ?_⟩
        rintro rfl
        rw [hcolon] at hr
        cases hr
      · decide
      · decide
      · decide

theorem mem_localName (h : isLocalName cs = true) (hc : c ∈ cs) : isNameChar c = true := by
  cases cs with
  | nil => cases hc
  | cons d cs =>
    simp only [isLocalName, Bool.and_eq_true, List.all_eq_true] at h
    obtain ⟨⟨hd, hall⟩, -⟩ := h
    rcases List.mem_cons.1 hc with rfl | hc
    · simp only [Bool.or_eq_true, beq_iff_eq] at hd
      rcases hd with (hd | rfl) | rfl
      · simp [isNameChar, hd]
      · decide
      · decide
    · exact hall c hc

theorem prefixName_ne_angle (h : isPrefixName ('<' :: cs) = true) : False := by
  have hc := (mem_prefixName h List.mem_cons_self).1
  revert hc
  decide

theorem LocalName.ofText_eq_ok_iff {text : String} {ending : LocalName} :
    LocalName.ofText text = .ok ending ↔ ending.text = text := by
  unfold LocalName.ofText
  split
  · next hv => cases ending; simp [eq_comm]
  · next hv =>
    refine ⟨fun h => (by cases h), ?_⟩
    rintro rfl
    exact absurd ending.valid hv

namespace Name

theorem ofParts_eq_ok_iff {n : Name} {space ending : String} :
    ofParts space ending = .ok n ↔
      ∃ s e, n = short s e ∧ s.text = space ∧ e.text = ending := by
  simp only [ofParts, bind_eq_ok_iff, PrefixName.ofText_eq_ok_iff, LocalName.ofText_eq_ok_iff]
  refine ⟨?_, ?_⟩
  · rintro ⟨s, hs, e, he, h⟩
    cases h
    exact ⟨s, e, rfl, hs, he⟩
  · rintro ⟨s, e, rfl, hs, he⟩
    exact ⟨s, hs, e, he, rfl⟩

theorem toList_written_full (iri : Iri) :
    (full iri).written.toList = '<' :: (iri.text.toList ++ ['>']) := by
  simp [written]

theorem toList_written_short (space : PrefixName) (ending : LocalName) :
    (short space ending).written.toList = space.text.toList ++ ':' :: ending.text.toList := by
  simp [written]

theorem mem_written_short {space : PrefixName} {ending : LocalName}
    (hc : c ∈ (short space ending).written.toList) : isNameChar c = true := by
  rw [toList_written_short] at hc
  rcases List.mem_append.1 hc with hc | hc
  · exact (mem_prefixName space.valid hc).1
  · rcases List.mem_cons.1 hc with rfl | hc
    · decide
    · exact mem_localName ending.valid hc

theorem mem_written {n : Name} (hc : c ∈ n.written.toList) :
    Iri.isIriChar c = true ∨ isNameChar c = true ∨ c = '<' ∨ c = '>' := by
  cases n with
  | full iri =>
    rw [toList_written_full] at hc
    rcases List.mem_cons.1 hc with rfl | hc
    · simp
    · rcases List.mem_append.1 hc with hc | hc
      · exact .inl (Iri.allIriChars_of_isIri iri.valid c hc)
      · simp [List.mem_singleton.1 hc]
  | short space ending => exact .inr (.inl (mem_written_short hc))

/-- A written name starts with an angle bracket or holds a colon. -/
theorem head_written (n : Name) : (∃ cs, n.written.toList = '<' :: cs) ∨ ':' ∈ n.written.toList := by
  cases n with
  | full iri => exact .inl ⟨_, toList_written_full iri⟩
  | short space ending =>
    right
    rw [toList_written_short]
    simp

theorem written_full_ne_short (iri : Iri) (space : PrefixName) (ending : LocalName) :
    (full iri).written.toList ≠ (short space ending).written.toList := by
  intro h
  rw [toList_written_full, toList_written_short] at h
  cases hs : space.text.toList with
  | nil => simp [hs] at h
  | cons c cs =>
    rw [hs] at h
    obtain rfl : '<' = c := (List.cons.inj h).1
    exact prefixName_ne_angle (hs ▸ space.valid)

theorem written_injective {n n' : Name} (h : n.written.toList = n'.written.toList) : n = n' := by
  cases n with
  | full iri =>
    cases n' with
    | full iri' =>
      rw [toList_written_full, toList_written_full] at h
      have ht : iri.text.toList = iri'.text.toList := List.append_cancel_right (List.cons.inj h).2
      obtain ⟨text, hv⟩ := iri
      obtain rfl : text = iri'.text := String.toList_injective ht
      rfl
    | short space ending => exact (written_full_ne_short iri space ending h).elim
  | short space ending =>
    cases n' with
    | full iri => exact (written_full_ne_short iri space ending h.symm).elim
    | short space' ending' =>
      rw [toList_written_short, toList_written_short] at h
      have hs : ':' ∉ space.text.toList := fun hc => (mem_prefixName space.valid hc).2 rfl
      have hs' : ':' ∉ space'.text.toList := fun hc => (mem_prefixName space'.valid hc).2 rfl
      -- the abbreviation holds no colon, so that both texts are cut at the same place
      have hcut := congrArg (Text.cutAt ':') h
      rw [Text.cutAt_append _ hs, Text.cutAt_append _ hs'] at hcut
      obtain ⟨ht, he⟩ := Prod.mk.inj (Option.some.inj hcut)
      obtain ⟨stext, hsv⟩ := space
      obtain ⟨etext, hev⟩ := ending
      obtain rfl : stext = space'.text := String.toList_injective ht
      obtain rfl : etext = ending'.text := String.toList_injective he
      rfl

end Name

namespace PrefixMap

/-- The maps that are made by declaring namespaces one after the other, each of them judged. -/
inductive Judged : PrefixMap → Prop
  | empty : Judged ∅
  | insert {m m' : PrefixMap} {space iri : String} (h : Judged m)
      (hi : m.insert space iri = (m', .ok ())) : Judged m'

theorem mem_put {space iri : String} {pairs : List (String × String)} {p : String × String}
    (h : p ∈ put space iri pairs) : p = (space, iri) ∨ p ∈ pairs := by
  induction pairs with
  | nil => simpa [put] using h
  | cons q rest ih =>
    obtain ⟨s, i⟩ := q
    rw [put] at h
    split at h
    · next hs =>
      subst hs
      rcases List.mem_cons.1 h with rfl | h
      · exact .inl rfl
      · exact .inr (List.mem_cons_of_mem _ h)
    · rcases List.mem_cons.1 h with rfl | h
      · exact .inr List.mem_cons_self
      · rcases ih h with rfl | h
        · exact .inl rfl
        · exact .inr (List.mem_cons_of_mem _ h)

theorem insert_eq (m : PrefixMap) (space iri : String) : m.insert space iri =
    match PrefixName.ofText space, Iri.ofText iri with
    | .error e, _ => (m, .error e)
    | .ok _, .error e => (m, .error e)
    | .ok s, .ok i => (m.declare s.text i.text, .ok ()) := by
  unfold insert
  cases PrefixName.ofText space with
  | error e => rfl
  | ok s => cases Iri.ofText iri <;> rfl

theorem insert_eq_ok_iff {m m' : PrefixMap} {space iri : String} :
    m.insert space iri = (m', .ok ()) ↔
      isPrefixName space.toList = true ∧ isIri iri.toList = true ∧ m' = m.declare space iri := by
  rw [insert_eq]
  constructor
  · intro h
    cases hs : PrefixName.ofText space with
    | error e => simp [hs] at h
    | ok s =>
      cases hi : Iri.ofText iri with
      | error e => simp [hs, hi] at h
      | ok i =>
        obtain rfl := PrefixName.ofText_eq_ok_iff.1 hs
        obtain rfl := Iri.ofText_eq_ok_iff.1 hi
        simp only [hs, hi, Prod.mk.injEq, and_true] at h
        exact ⟨s.valid, i.valid, h.symm⟩
  · rintro ⟨hs, hi, rfl⟩
    have hspace : PrefixName.ofText space = .ok ⟨space, hs⟩ := PrefixName.ofText_eq_ok_iff.2 rfl
    have hiri : Iri.ofText iri = .ok ⟨iri, hi⟩ := Iri.ofText_eq_ok_iff.2 rfl
    rw [hspace, hiri]

theorem withPrefix_eq_ok_iff {m m' : PrefixMap} {space iri : String} :
    m.withPrefix space iri = .ok m' ↔
      isPrefixName space.toList = true ∧ isIri iri.toList = true ∧ m' = m.declare space iri := by
  rw [← insert_eq_ok_iff, withPrefix]
  obtain ⟨m₁, result⟩ := m.insert space iri
  cases result <;> simp [Except.map]

/-- A namespace whose two texts are valid may be declared. -/
theorem Judged.declare {m : PrefixMap} (h : m.Judged) (space iri : String)
    (hs : isPrefixName space.toList = true) (hi : isIri iri.toList = true) :
    (m.declare space iri).Judged :=
  h.insert (insert_eq_ok_iff.2 ⟨hs, hi, rfl⟩)

theorem mem_of_get? {m : PrefixMap} {space iri : String} (h : m.get? space = some iri) :
    (space, iri) ∈ m.declarations := by
  obtain ⟨before, after, heq, -⟩ := List.lookup_eq_some_iff.1 h
  rw [heq]
  exact List.mem_append_right _ List.mem_cons_self

theorem Judged.valid {m : PrefixMap} (h : m.Judged) {p : String × String}
    (hp : p ∈ m.declarations) : isPrefixName p.1.toList = true ∧ isIri p.2.toList = true := by
  induction h with
  | empty => cases hp
  | insert _ hi ih =>
    obtain ⟨hs, hv, rfl⟩ := insert_eq_ok_iff.1 hi
    rcases mem_put hp with rfl | hp
    · exact ⟨hs, hv⟩
    · exact ih hp

end PrefixMap

namespace Compiler

variable {c c' : Compiler} {space iri : String}

theorem withPrefix_eq_ok_iff :
    c.withPrefix space iri = .ok c' ↔ isPrefixName space.toList = true ∧
      isIri iri.toList = true ∧ c' = { c with prefixes := c.prefixes.declare space iri } := by
  simp only [withPrefix, map_eq_ok_iff, PrefixMap.withPrefix_eq_ok_iff]
  refine ⟨?_, ?_⟩
  · rintro ⟨m, ⟨hs, hi, rfl⟩, rfl⟩
    exact ⟨hs, hi, rfl⟩
  · rintro ⟨hs, hi, rfl⟩
    exact ⟨_, ⟨hs, hi, rfl⟩, rfl⟩

theorem judged_default : default.prefixes.Judged :=
  (PrefixMap.Judged.empty.declare "" "http://example.org/" (by decide) (by decide +kernel)).declare
    "xsd" "http://www.w3.org/2001/XMLSchema#" (by decide +kernel) (by decide +kernel)

end Compiler

end TabularShapes
