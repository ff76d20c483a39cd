import TabularShapes.Proofs.Writing.Document
import TabularShapes.Proofs.Writing.Words

/-! The text in the compact syntax determines the schema, apart from labels. The words of a part of
the text never are the start of the words of another part, so that texts with the same words are
taken apart in the same way, whatever their margins. -/

namespace TabularShapes

structure Constraint.Alike (k k' : Constraint) : Prop where
  predicate : k.predicate = k'.predicate
  value : k.value = k'.value
  min : k.cardinality.min = k'.cardinality.min
  max : k.cardinality.max? = k'.cardinality.max?

/-- Shapes of the same name with constraints that say the same. -/
structure Declaration.Alike (d d' : Declaration) : Prop where
  id : d.id = d'.id
  constraints : List.Forall₂ Constraint.Alike d.constraints d'.constraints

/-- A word that no name is written as: it holds no colon and does not start with an angle bracket. -/
def isSign (w : List Char) : Bool := !w.contains ':' && w.head? != some '<'

theorem Name.written_ne_sign {w : List Char} (hw : isSign w = true) (n : Name) :
    n.written.toList ≠ w := by
  rintro rfl
  simp only [isSign, Bool.and_eq_true, Bool.not_eq_true', bne_iff_ne] at hw
  rcases n.head_written with ⟨cs, h⟩ | h
  · rw [h] at hw
    exact hw.2 rfl
  · simp [h] at hw

theorem Name.written_ne_at (n n' : Name) : n.written.toList ≠ '@' :: n'.written.toList := by
  intro h
  have hat : isNameChar '@' = false := by decide
  cases n with
  | full iri => simp [toList_written_full] at h
  | short space ending =>
    rw [toList_written_short] at h
    cases hs : space.text.toList with
    | nil => simp [hs] at h
    | cons c cs =>
      have hc := (mem_prefixName space.valid (hs ▸ List.mem_cons_self)).1
      rw [hs] at h
      obtain rfl : c = '@' := (List.cons.inj h).1
      rw [hat] at hc
      cases hc

namespace Compact

open Text (words)

theorem toList_value_reference (n : Name) :
    (value (.reference n)).text.toList = '@' :: n.written.toList := by
  simp [value]

theorem value_injective {v v' : Value}
    (h : (value v).text.toList = (value v').text.toList) : v = v' := by
  have hkind : ∀ k : NodeKind, isSign k.keyword.toList = true := by
    intro k
    cases k <;> decide
  cases v with
  | datatype n =>
    cases v' with
    | datatype n' => rw [Name.written_injective h]
    | reference n' =>
      rw [toList_value_reference] at h
      exact (n.written_ne_at n' h).elim
    | nodeKind k => exact (n.written_ne_sign (hkind k) h).elim
    | any => exact (n.written_ne_sign (by decide) h).elim
  | reference n =>
    rw [toList_value_reference] at h
    cases v' with
    | datatype n' => exact (n'.written_ne_at n h.symm).elim
    | reference n' =>
      rw [toList_value_reference] at h
      rw [Name.written_injective (List.cons.inj h).2]
    | nodeKind k => cases k <;> simp [value, NodeKind.keyword] at h
    | any => simp [value] at h
  | nodeKind k =>
    cases v' with
    | datatype n => exact (n.written_ne_sign (hkind k) h.symm).elim
    | reference n =>
      rw [toList_value_reference] at h
      cases k <;> simp [value, NodeKind.keyword] at h
    | nodeKind k' => cases k <;> cases k' <;> first | rfl | simp [value, NodeKind.keyword] at h
    | any => cases k <;> simp [value, NodeKind.keyword] at h
  | any =>
    cases v' with
    | datatype n => exact (n.written_ne_sign (by decide) h.symm).elim
    | reference n =>
      rw [toList_value_reference] at h
      simp [value] at h
    | nodeKind k => cases k <;> simp [value, NodeKind.keyword] at h
    | any => rfl

/-- What follows a constraint: another one, or the end of the shape. -/
def Ends (x : List Char) : Prop := x = [';'] ∨ x = ['\x7d']

variable {x x' : List Char} {r r' : List (List Char)}

theorem markerWords_append {c c' : Cardinality} (hx : Ends x) (hx' : Ends x')
    (h : markerWords c ++ x :: r = markerWords c' ++ x' :: r') :
    (c.min = c'.min ∧ c.max? = c'.max?) ∧ x = x' ∧ r = r' := by
  rcases hx with rfl | rfl <;> rcases hx' with rfl | rfl <;> cases c <;> cases c' <;>
    simp_all [markerWords, Cardinality.marker, Cardinality.min, Cardinality.max?]

theorem constraintWords_append {k k' : Constraint} (hx : Ends x) (hx' : Ends x')
    (h : constraintWords k ++ x :: r = constraintWords k' ++ x' :: r') :
    k.Alike k' ∧ x = x' ∧ r = r' := by
  obtain ⟨hp, h⟩ := List.cons.inj h
  obtain ⟨hv, h⟩ := List.cons.inj h
  obtain ⟨⟨hmin, hmax⟩, he, hr⟩ := markerWords_append hx hx' h
  exact ⟨⟨Name.written_injective hp, value_injective hv, hmin, hmax⟩, he, hr⟩

theorem constraintsWords_cons (k : Constraint) (ks : List Constraint) :
    (ks = [] ∧ constraintsWords (k :: ks) = constraintWords k ++ [['\x7d']]) ∨
      ks ≠ [] ∧ constraintsWords (k :: ks) = constraintWords k ++ [';'] :: constraintsWords ks := by
  cases ks with
  | nil => exact .inl ⟨rfl, rfl⟩
  | cons k' ks => exact .inr ⟨List.cons_ne_nil _ _, rfl⟩

theorem constraintsWords_append {ks ks' : List Constraint} (hks : ks ≠ []) (hks' : ks' ≠ [])
    (h : constraintsWords ks ++ r = constraintsWords ks' ++ r') :
    List.Forall₂ Constraint.Alike ks ks' ∧ r = r' := by
  have hsemi : Ends [';'] := .inl rfl
  have hclose : Ends ['\x7d'] := .inr rfl
  induction ks generalizing ks' with
  | nil => exact (hks rfl).elim
  | cons k ks ih =>
    cases ks' with
    | nil => exact (hks' rfl).elim
    | cons k' ks' =>
      rcases constraintsWords_cons k ks with ⟨rfl, hw⟩ | ⟨hne, hw⟩ <;>
        rcases constraintsWords_cons k' ks' with ⟨rfl, hw'⟩ | ⟨hne', hw'⟩ <;>
        rw [hw, hw', List.append_assoc, List.append_assoc] at h
      · obtain ⟨hk, -, hr⟩ := constraintWords_append hclose hclose h
        exact ⟨.cons hk .nil, hr⟩
      · obtain ⟨-, hx, -⟩ := constraintWords_append hclose hsemi h
        cases hx
      · obtain ⟨-, hx, -⟩ := constraintWords_append hsemi hclose h
        cases hx
      · obtain ⟨hk, -, h⟩ := constraintWords_append hsemi hsemi h
        obtain ⟨hrest, hr⟩ := ih hne hne' h
        exact ⟨.cons hk hrest, hr⟩

theorem shapeWords_append {d d' : Declaration} (h : shapeWords d ++ r = shapeWords d' ++ r') :
    d.Alike d' ∧ r = r' := by
  obtain ⟨hid, h⟩ := List.cons.inj h
  have hid := Name.written_injective hid
  have hempty : ∀ {d : Declaration}, d.isEmpty = true → d.constraints = [] := by
    intro d hd
    simpa [Declaration.isEmpty] using hd
  have hfull : ∀ {d : Declaration}, ¬ d.isEmpty = true → d.constraints ≠ [] := by
    intro d hd
    simpa [Declaration.isEmpty] using hd
  split at h
  · next hd =>
    split at h
    · next hd' =>
      refine ⟨⟨hid, ?_⟩, (List.cons.inj h).2⟩
      rw [hempty hd, hempty hd']
      exact .nil
    · cases (List.cons.inj h).1
  · next hd =>
    split at h
    · cases (List.cons.inj h).1
    · next hd' =>
      obtain ⟨hks, hr⟩ := constraintsWords_append (hfull hd) (hfull hd') (List.cons.inj h).2
      exact ⟨⟨hid, hks⟩, hr⟩

theorem flatMap_shapeWords {ds ds' : List Declaration}
    (h : ds.flatMap shapeWords = ds'.flatMap shapeWords) :
    List.Forall₂ Declaration.Alike ds ds' := by
  induction ds generalizing ds' with
  | nil =>
    cases ds' with
    | nil => exact .nil
    | cons d' ds' => cases h
  | cons d ds ih =>
    cases ds' with
    | nil => cases h
    | cons d' ds' =>
      obtain ⟨hd, h⟩ := shapeWords_append h
      exact .cons hd (ih h)

theorem flatMap_shapeWords_ne {ds : List Declaration} {p : String × String} :
    ds.flatMap shapeWords ≠ declarationWords p ++ r := by
  intro h
  cases ds with
  | nil => cases h
  | cons d ds => exact d.id.written_ne_sign (by decide) (List.cons.inj h).1

theorem declarationWords_append {p p' : String × String}
    (h : declarationWords p ++ r = declarationWords p' ++ r') : p = p' ∧ r = r' := by
  obtain ⟨-, h⟩ := List.cons.inj h
  obtain ⟨hspace, h⟩ := List.cons.inj h
  obtain ⟨hiri, hr⟩ := List.cons.inj h
  have hs := String.toList_injective (List.append_cancel_right hspace)
  have hi := String.toList_injective (List.append_cancel_right (List.cons.inj hiri).2)
  exact ⟨Prod.ext hs hi, hr⟩

theorem flatMap_append_flatMap {ps ps' : List (String × String)} {ds ds' : List Declaration}
    (h : ps.flatMap declarationWords ++ ds.flatMap shapeWords =
      ps'.flatMap declarationWords ++ ds'.flatMap shapeWords) :
    ps = ps' ∧ List.Forall₂ Declaration.Alike ds ds' := by
  induction ps generalizing ps' with
  | nil =>
    cases ps' with
    | nil => exact ⟨rfl, flatMap_shapeWords h⟩
    | cons p' ps' =>
      rw [List.flatMap_cons, List.append_assoc] at h
      exact (flatMap_shapeWords_ne h).elim
  | cons p ps ih =>
    rw [List.flatMap_cons, List.append_assoc] at h
    cases ps' with
    | nil => exact (flatMap_shapeWords_ne h.symm).elim
    | cons p' ps' =>
      rw [List.flatMap_cons, List.append_assoc] at h
      obtain ⟨rfl, hrest⟩ := declarationWords_append h
      obtain ⟨rfl, hds⟩ := ih hrest
      exact ⟨rfl, hds⟩

/-- Schemas that are written alike, without labels and colours, have the same namespaces and the same
shapes in the same order, and their constraints say the same one by one. Not even the widths of the
margins have to agree. -/
theorem write_determines {s s' : Schema} {indent indent' : Nat} (h : s.prefixes.Judged)
    (h' : s'.prefixes.Judged)
    (heq : s.write { format := .shexC, indent, labels := false, colours := false } =
      s'.write { format := .shexC, indent := indent', labels := false, colours := false }) :
    s.prefixes.declarations = s'.prefixes.declarations ∧
      s.declarations.map (·.id) = s'.declarations.map (·.id) ∧
      List.Forall₂ (fun d d' => List.Forall₂ Constraint.Alike d.constraints d'.constraints)
        s.declarations s'.declarations := by
  have hwords : words (s.write { indent }).toList = words (s'.write { indent := indent' }).toList :=
    congrArg (fun t : String => words t.toList) heq
  rw [words_write h, words_write h'] at hwords
  obtain ⟨hps, hds⟩ := flatMap_append_flatMap hwords
  have hids := Document.map_eq_of_forall₂ (f := (·.id)) (hds.imp fun _ _ hd => hd.id)
  exact ⟨hps, hids, hds.imp fun _ _ hd => hd.constraints⟩

def person (label : Option String) (cardinality : Cardinality) : Schema where
  prefixes := ⟨[("ex", "http://example.org/")]⟩
  declarations :=
    let id : Name := .short ⟨"ex", by decide⟩ ⟨"Person", by decide⟩
    [{ id, label, constraints :=
      [{ predicate := .short ⟨"ex", by decide⟩ ⟨"name", by decide⟩, value := .nodeKind .literal,
         cardinality, label },
        { predicate := .full ⟨"http://example.org/knows", by decide⟩, value := .reference id,
          cardinality := .zeroOrMore }] }]

theorem judged_person (label : Option String) (cardinality : Cardinality) :
    (person label cardinality).prefixes.Judged :=
  PrefixMap.Judged.empty.declare "ex" "http://example.org/" (by decide) (by decide +kernel)

/-- A label leaves no trace, nor does the difference between two cardinalities of one. -/
theorem write_determines_of_person :
    (person none .one).prefixes.Judged ∧ (person (some "A") .requiredOne).prefixes.Judged ∧
    (person none .one).write { indent := 4 } =
      (person (some "A") .requiredOne).write { indent := 4 } ∧
    List.Forall₂ (fun d d' => List.Forall₂ Constraint.Alike d.constraints d'.constraints)
      (person none .one).declarations (person (some "A") .requiredOne).declarations := by
  have hinsert : PrefixMap.empty.insert "ex" "http://example.org/" =
      (⟨[("ex", "http://example.org/")]⟩, .ok ()) := by rfl
  have hp : (⟨[("ex", "http://example.org/")]⟩ : PrefixMap).Judged := .insert .empty hinsert
  have heq : (person none .one).write { indent := 4 } =
      (person (some "A") .requiredOne).write { indent := 4 } := by
    decide +kernel
  exact ⟨hp, hp, heq, (write_determines hp hp heq).2.2⟩

end Compact

end TabularShapes
