import TabularShapes.Proofs.Profile.Records
import Mathlib.Data.List.TakeWhile
import Mathlib.Data.Nat.Count

/-! What a reader reads of a record: the text in each column that has a meaning, and whether there is
any text at all. Tables whose columns hold the same texts, in other places or with other white space
around them, read alike. -/

namespace TabularShapes.Text

theorem trimChars_append {w w' : List Char} (hw : ∀ c ∈ w, isBlank c = true)
    (hw' : ∀ c ∈ w', isBlank c = true) (cs : List Char) :
    trimChars (w ++ cs ++ w') = trimChars cs := by
  rw [trimChars, trimChars, List.append_assoc, List.dropWhile_append_of_pos hw,
    List.dropWhile_append]
  split_ifs with hcs
  · rw [List.isEmpty_iff] at hcs
    rw [hcs, List.dropWhile_eq_nil_iff.2 hw']
  · rw [List.reverse_append, List.dropWhile_append_of_pos (by simpa using hw')]

/-- The text with white space put around it. -/
def Padded (s t : String) : Prop :=
  ∃ w w' : String, (∀ c ∈ w.toList, isBlank c = true) ∧ (∀ c ∈ w'.toList, isBlank c = true) ∧
    t = w ++ s ++ w'

theorem Padded.trim_eq {s t : String} (h : Padded s t) : trim s = trim t := by
  obtain ⟨w, w', hw, hw', rfl⟩ := h
  rw [trim, trim, String.toList_append, String.toList_append, trimChars_append hw hw']

end TabularShapes.Text

namespace TabularShapes.Profile

open Table (Dialect Record Source)

/-- The text in a column of a record; nothing if no more than white space stands there. -/
def textAt (fields : List String) (i : ℕ) : Option String :=
  (fields[i]?.map Text.trim).filter (· ≠ "")

def headed (titles : List String) : Header := ⟨titles.map Text.trim⟩

variable {fields fields' titles titles' : List String} {c : Column} {i k : ℕ} {t : String}
  {m : ℕ → ℕ → Prop}

theorem title_ne_empty (c : Column) : c.title ≠ "" := by cases c <;> decide

theorem textAt_eq_some_iff :
    textAt fields i = some t ↔ (fields.map Text.trim)[i]? = some t ∧ t ≠ "" := by
  simp [textAt, Option.filter_eq_some_iff]

theorem isBlankRecord_iff : isBlankRecord fields = true ↔ ∀ i, textAt fields i = none := by
  simp only [isBlankRecord, List.all_eq_true, beq_iff_eq, Option.eq_none_iff_forall_ne_some,
    Ne, textAt_eq_some_iff, List.getElem?_map, Option.map_eq_some_iff]
  constructor
  · rintro h i _ ⟨⟨f, hf, rfl⟩, hne⟩
    exact hne (h f (List.mem_of_getElem? hf))
  · intro h f hf
    obtain ⟨i, hi⟩ := List.mem_iff_getElem?.1 hf
    by_contra hne
    exact h i _ ⟨⟨f, hi, rfl⟩, hne⟩

theorem textAt_eq_title_iff :
    textAt titles i = some c.title ↔ (titles.map Text.trim)[i]? = some c.title := by
  simp [textAt_eq_some_iff, title_ne_empty]

theorem place?_eq_some_iff : (headed titles).place? c = some i ↔
    textAt titles i = some c.title ∧ ∀ j < i, textAt titles j ≠ some c.title := by
  simp only [Header.place?, headed, textAt_eq_title_iff, Ne]
  rw [List.findIdx?_eq_some_iff_getElem]
  constructor
  · rintro ⟨hi, htitle, hfirst⟩
    refine ⟨List.getElem?_eq_some_iff.2 ⟨hi, beq_iff_eq.1 htitle⟩, fun j hj heq => ?_⟩
    obtain ⟨_, heq⟩ := List.getElem?_eq_some_iff.1 heq
    exact hfirst j hj (beq_iff_eq.2 heq)
  · rintro ⟨htitle, hfirst⟩
    obtain ⟨hi, htitle⟩ := List.getElem?_eq_some_iff.1 htitle
    refine ⟨hi, beq_iff_eq.2 htitle, fun j hj heq => hfirst j hj ?_⟩
    exact List.getElem?_eq_some_iff.2 ⟨hj.trans hi, beq_iff_eq.1 heq⟩

theorem place?_eq_none_iff : (headed titles).place? c = none ↔
    ∀ i, textAt titles i ≠ some c.title := by
  simp only [Header.place?, headed, textAt_eq_title_iff, Ne, List.findIdx?_eq_none_iff,
    beq_eq_false_iff_ne]
  constructor
  · intro h i hi
    exact h _ (List.mem_of_getElem? hi) rfl
  · rintro h _ hx rfl
    obtain ⟨i, hi⟩ := List.mem_iff_getElem?.1 hx
    exact h i hi

theorem cell_eq : (headed titles).cell fields c = ((headed titles).place? c).bind (textAt fields) := by
  rw [Header.cell]
  cases (headed titles).place? c <;> rfl

/-! ### Columns in other places -/

/-- The texts of a record stand in the columns of another one where `m` puts them, and no other texts
do. -/
structure Carries (m : ℕ → ℕ → Prop) (fields fields' : List String) : Prop where
  same : ∀ i k, m i k → textAt fields i = textAt fields' k
  onto : ∀ k, textAt fields' k ≠ none → ∃ i, m i k

/-- Each column that is read has a place, and is read there: no other column with its title has a
place further to the left. -/
def Keeps (m : ℕ → ℕ → Prop) (titles : List String) : Prop :=
  ∀ (c : Column) (i : ℕ), (headed titles).place? c = some i →
    ∃ k, m i k ∧ ∀ j l, m j l → textAt titles j = some c.title → k ≤ l

theorem Carries.blank (h : Carries m fields fields')
    (hblank : isBlankRecord fields = true) : isBlankRecord fields' = true := by
  rw [isBlankRecord_iff] at hblank ⊢
  intro k
  by_contra hne
  obtain ⟨i, hik⟩ := h.onto k hne
  exact hne ((h.same i k hik).symm.trans (hblank i))

theorem Carries.blank_eq (h : Carries m fields fields') (hm : ∀ i, ∃ k, m i k) :
    isBlankRecord fields = isBlankRecord fields' := by
  rw [Bool.eq_iff_iff]
  refine ⟨h.blank, fun hblank => ?_⟩
  rw [isBlankRecord_iff] at hblank ⊢
  intro i
  obtain ⟨k, hik⟩ := hm i
  exact (h.same i k hik).trans (hblank k)

theorem place?_of_none (h : Carries m titles titles') (hc : (headed titles).place? c = none) :
    (headed titles').place? c = none := by
  rw [place?_eq_none_iff] at hc ⊢
  intro k hk
  obtain ⟨i, hik⟩ := h.onto k (by simp [hk])
  exact hc i ((h.same i k hik).trans hk)

theorem place?_of_some (h : Carries m titles titles') (hkeeps : Keeps m titles)
    (hc : (headed titles).place? c = some i) :
    ∃ k, m i k ∧ (headed titles').place? c = some k := by
  obtain ⟨k, hik, hfirst⟩ := hkeeps c i hc
  refine ⟨k, hik, place?_eq_some_iff.2 ⟨?_, fun l hl htitle => ?_⟩⟩
  · rw [← h.same i k hik]
    exact (place?_eq_some_iff.1 hc).1
  · obtain ⟨j, hjl⟩ := h.onto l (by simp [htitle])
    exact absurd (hfirst j l hjl ((h.same j l hjl).trans htitle)) (by omega)

theorem cell_of_carries (htitles : Carries m titles titles') (hkeeps : Keeps m titles)
    (h : Carries m fields fields') (c : Column) :
    (headed titles).cell fields c = (headed titles').cell fields' c := by
  rw [cell_eq, cell_eq]
  cases hc : (headed titles).place? c with
  | none => rw [place?_of_none htitles hc, Option.bind_none, Option.bind_none]
  | some i =>
    obtain ⟨k, hik, hk⟩ := place?_of_some htitles hkeeps hc
    rw [hk]
    exact h.same i k hik

theorem ofFields_eq : Header.ofFields titles =
    if ((headed titles).place? .propertyId).isSome then .ok (headed titles)
    else .error (.missingColumn .propertyId) := by
  have hmem : Column.propertyId.title ∈ titles.map Text.trim ↔
      ((headed titles).place? .propertyId).isSome = true := by
    rw [Option.isSome_iff_ne_none, Ne, place?_eq_none_iff, not_forall, List.mem_iff_getElem?]
    simp only [textAt_eq_title_iff, not_not]
  rw [Header.ofFields]
  exact if_congr hmem rfl rfl

theorem agree_ofFields (h : Carries m titles titles') (hkeeps : Keeps m titles) :
    Agree SameError (fun header header' => header = headed titles ∧ header' = headed titles')
      (Header.ofFields titles) (Header.ofFields titles') := by
  rw [ofFields_eq, ofFields_eq]
  cases hc : (headed titles).place? .propertyId with
  | none =>
    rw [place?_of_none h hc]
    exact .error rfl
  | some i =>
    obtain ⟨k, -, hk⟩ := place?_of_some h hkeeps hc
    rw [hk]
    exact .ok ⟨rfl, rfl⟩

/-! ### Tables with other records -/

def titles? : List Record → Option (List String)
  | [] => none
  | r :: rs =>
    match recordTexts r with
    | .error _ => none
    | .ok fields => if isBlankRecord fields then titles? rs else some fields

/-- The one record holds what `R` makes of the other. Where the one is no text the other fails in the
same way. -/
def Turned (R : List String → List String → Prop) (r r' : Record) : Prop :=
  Agree SameError R (recordTexts r) (recordTexts r')

/-- Columns in other places, and no record that becomes blank. -/
def Moves (m : ℕ → ℕ → Prop) (fields fields' : List String) : Prop :=
  Carries m fields fields' ∧ isBlankRecord fields = isBlankRecord fields'

variable {rs rs' : List Record}

theorem titles?_of_blank {r : Record} (h : Blank r) (rs : List Record) :
    titles? (r :: rs) = titles? rs := by
  obtain ⟨fields, hfields, hblank⟩ := h
  simp [titles?, hfields, hblank]

theorem headerOf_of_blank {r : Record} (h : Blank r) (failure : Option String) (rs : List Record) :
    headerOf failure (r :: rs) = headerOf failure rs := by
  obtain ⟨fields, hfields, hblank⟩ := h
  rw [headerOf_cons hfields, if_pos hblank]

theorem agree_headerOf (failure : Option String) (h : Aligned (Turned (Moves m)) rs rs')
    (hkeeps : ∀ titles, titles? rs = some titles → Keeps m titles) :
    Agree SameError (fun p p' => Aligned (SameCells p.1 p'.1) p.2 p'.2)
      (headerOf failure rs) (headerOf failure rs') := by
  induction h with
  | nil => cases failure <;> exact .error rfl
  | cons hr hrest ih =>
    rw [headerOf, headerOf]
    refine (Agree.attach hr).bind ?_
    rintro fields fields' ⟨⟨hcarries, hblank⟩, hfields, -⟩
    rw [← hblank]
    split_ifs with hb
    · exact ih fun titles ht => hkeeps titles (by rwa [titles?_of_blank ⟨fields, hfields, hb⟩])
    · have hkept : Keeps m fields := hkeeps fields (by simp [titles?, hfields, hb])
      refine (agree_ofFields hcarries hkept).bind ?_
      rintro _ _ ⟨rfl, rfl⟩
      refine .ok (hrest.imp fun x _ x' hx => hx.mono ?_)
      rintro f f' ⟨hf, hfblank⟩
      exact ⟨hfblank, cell_of_carries hcarries hkept hf⟩
  | blank_left hr _ ih =>
    rw [headerOf_of_blank hr]
    exact ih fun titles ht => hkeeps titles (by rwa [titles?_of_blank hr])
  | blank_right hr _ ih =>
    rw [headerOf_of_blank hr]
    exact ih hkeeps

/-- A table that holds what `R` makes of another one, record by record. -/
structure Rewritten (R : List String → List String → Prop) (d : Dialect) (source : Source)
    (d' : Dialect) (source' : Source) : Prop where
  failure : source.failureMet = source'.failureMet
  records : Aligned (Turned R) (Table.records d source) (Table.records d' source')

variable {d d' : Dialect} {source source' : Source}

/-- Tables with the same texts in columns that are found again read alike. -/
theorem Rewritten.agree_read (h : Rewritten (Moves m) d source d' source')
    (hkeeps : ∀ titles, titles? (Table.records d source) = some titles → Keeps m titles) :
    Agree SameError SameRows (read d source).result (read d' source').result := by
  rw [result_read, result_read, ← h.failure]
  refine (agree_headerOf _ h.records hkeeps).bind ?_
  intro p p' hp
  exact agree_rowsOf _ hp

end TabularShapes.Profile
