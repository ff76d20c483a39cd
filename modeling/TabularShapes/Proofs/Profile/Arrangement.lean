import TabularShapes.Proofs.Profile.Cleaning
import TabularShapes.Proofs.Profile.Columns

/-! Tables that are arranged in other ways. Neither the order of the columns, nor white space around
what stands in them, nor empty fields at the end of a record, nor columns without a meaning change
what is read. Only for a record that holds text in such columns alone do they count: it is not
blank. -/

namespace TabularShapes.Profile

open Text (Padded)
open Table (Dialect Record Source)

variable {fields fields' titles : List String} {i k : ℕ}

/-! ### The same texts in the same columns -/

theorem moves_of_textAt (h : ∀ i, textAt fields i = textAt fields' i) : Moves Eq fields fields' := by
  have hcarries : Carries Eq fields fields' := by
    refine ⟨?_, fun k _ => ⟨k, rfl⟩⟩
    rintro i _ rfl
    exact h i
  exact ⟨hcarries, hcarries.blank_eq fun i => ⟨i, rfl⟩⟩

theorem keeps_eq (titles : List String) : Keeps Eq titles := by
  intro c i hc
  refine ⟨i, rfl, ?_⟩
  rintro j _ rfl htitle
  by_contra hlt
  exact (place?_eq_some_iff.1 hc).2 j (by omega) htitle

theorem textAt_of_padded (h : List.Forall₂ Padded fields fields') (i : ℕ) :
    textAt fields i = textAt fields' i := by
  induction h generalizing i with
  | nil => rfl
  | cons hpadded _ ih =>
    cases i with
    | zero => simp [textAt, hpadded.trim_eq]
    | succ i => simpa [textAt] using ih i

theorem textAt_append_empty (fields : List String) (n i : ℕ) :
    textAt (fields ++ List.replicate n "") i = textAt fields i := by
  have htrim : Text.trim "" = "" := by decide
  rcases Nat.lt_or_ge i fields.length with hi | hi
  · rw [textAt, textAt, List.getElem?_append_left hi]
  · rw [textAt, textAt, List.getElem?_append_right hi, List.getElem?_eq_none hi,
      List.getElem?_replicate]
    split_ifs <;> simp [htrim]

/-- The one record has empty fields at its end that the other has not. -/
def SameButEmptyEnd (fields fields' : List String) : Prop :=
  ∃ n, fields' = fields ++ List.replicate n "" ∨ fields = fields' ++ List.replicate n ""

theorem textAt_of_sameButEmptyEnd (h : SameButEmptyEnd fields fields') (i : ℕ) :
    textAt fields i = textAt fields' i := by
  obtain ⟨n, rfl | rfl⟩ := h
  · exact (textAt_append_empty fields n i).symm
  · exact textAt_append_empty fields' n i

/-! ### Columns in another order -/

/-- The first columns in another order: the `k`-th of them is the one that `p` has at `k`. A record
that is too short gets empty fields. -/
def rearrange (p : List ℕ) (fields : List String) : List String :=
  p.map (fun i => fields[i]?.getD "") ++ fields.drop p.length

def Distinct (titles : List String) : Prop :=
  ∀ (c : Column) (i j : ℕ), textAt titles i = some c.title → textAt titles j = some c.title → i = j

theorem textAt_rearrange (p : List ℕ) (fields : List String) (k : ℕ) :
    textAt (rearrange p fields) k = textAt fields (p[k]?.getD k) := by
  have htrim : Text.trim "" = "" := by decide
  rcases Nat.lt_or_ge k p.length with hk | hk
  · have hget : (rearrange p fields)[k]? = some (fields[p[k]]?.getD "") := by
      rw [rearrange, List.getElem?_append_left (by simpa using hk)]
      simp [hk]
    rw [textAt, textAt, hget, List.getElem?_eq_getElem hk, Option.getD_some]
    cases fields[p[k]]? <;> simp [htrim]
  · have hget : (rearrange p fields)[k]? = fields[k]? := by
      rw [rearrange, List.getElem?_append_right (by simpa using hk), List.length_map,
        List.getElem?_drop, Nat.add_sub_cancel' hk]
    rw [textAt, textAt, hget, List.getElem?_eq_none hk, Option.getD_none]

/-- Every column has a place in the new order. -/
theorem exists_of_perm {p : List ℕ} (hp : p.Perm (List.range p.length)) (i : ℕ) :
    ∃ k, p[k]?.getD k = i := by
  rcases Nat.lt_or_ge i p.length with hi | hi
  · obtain ⟨k, hk⟩ := List.mem_iff_getElem?.1 (hp.mem_iff.2 (List.mem_range.2 hi))
    exact ⟨k, by rw [hk, Option.getD_some]⟩
  · exact ⟨i, by rw [List.getElem?_eq_none hi, Option.getD_none]⟩

theorem moves_rearrange {p : List ℕ} (hp : p.Perm (List.range p.length)) (fields : List String) :
    Moves (fun i k => p[k]?.getD k = i) fields (rearrange p fields) := by
  have hcarries : Carries (fun i k => p[k]?.getD k = i) fields (rearrange p fields) := by
    refine ⟨?_, fun k _ => ⟨_, rfl⟩⟩
    rintro _ k rfl
    exact (textAt_rearrange p fields k).symm
  exact ⟨hcarries, hcarries.blank_eq (exists_of_perm hp)⟩

theorem distinct_of_nodup (h : (titles.map Text.trim).Nodup) : Distinct titles := by
  intro c i j hi hj
  rw [textAt_eq_title_iff] at hi hj
  obtain ⟨hlt, -⟩ := List.getElem?_eq_some_iff.1 hi
  exact (List.getElem?_inj hlt h).1 (hi.trans hj.symm)

/-- Of a title that stands once the first place is the only one. -/
theorem Distinct.keeps (h : Distinct titles) {m : ℕ → ℕ → Prop} (hm : ∀ i, ∃ k, m i k) :
    Keeps m titles := by
  classical
  intro c i hc
  refine ⟨Nat.find (hm i), Nat.find_spec (hm i), fun j l hjl htitle => ?_⟩
  obtain rfl := h c i j (place?_eq_some_iff.1 hc).1 htitle
  exact Nat.find_min' (hm i) hjl

/-! ### Columns that are removed -/

def select (keep : ℕ → Bool) : List String → List String
  | [] => []
  | f :: fields =>
    if keep 0 then f :: select (fun i => keep (i + 1)) fields
    else select (fun i => keep (i + 1)) fields

/-- The column is kept, and as many are kept before it. -/
def IsKept (keep : ℕ → Bool) (i k : ℕ) : Prop :=
  keep i = true ∧ Nat.count (fun j => keep j = true) i = k

theorem getElem?_select (keep : ℕ → Bool) (fields : List String) (h : IsKept keep i k) :
    (select keep fields)[k]? = fields[i]? := by
  obtain ⟨hi, rfl⟩ := h
  induction fields generalizing keep i with
  | nil => rfl
  | cons f fields ih =>
    cases i with
    | zero => simp [select, hi]
    | succ i =>
      rw [select, Nat.count_succ', List.getElem?_cons_succ, ← ih (fun j => keep (j + 1)) hi]
      split_ifs <;> simp

theorem exists_isKept (keep : ℕ → Bool) (fields : List String)
    (h : k < (select keep fields).length) : ∃ i, IsKept keep i k := by
  induction fields generalizing keep k with
  | nil => exact absurd h (by simp [select])
  | cons f fields ih =>
    rw [select] at h
    split_ifs at h with hf
    · cases k with
      | zero => exact ⟨0, hf, rfl⟩
      | succ k =>
        obtain ⟨i, hi, hk⟩ := ih (fun j => keep (j + 1)) (Nat.lt_of_succ_lt_succ h)
        exact ⟨i + 1, hi, by rw [Nat.count_succ', hk, if_pos hf]⟩
    · obtain ⟨i, hi, hk⟩ := ih (fun j => keep (j + 1)) h
      exact ⟨i + 1, hi, by rw [Nat.count_succ', hk, if_neg hf, Nat.add_zero]⟩

theorem carries_select (keep : ℕ → Bool) (fields : List String) :
    Carries (IsKept keep) fields (select keep fields) := by
  refine ⟨fun i k hik => ?_, fun k hk => ?_⟩
  · rw [textAt, textAt, getElem?_select keep fields hik]
  · apply exists_isKept keep fields
    by_contra hlen
    exact hk (by simp [textAt, List.getElem?_eq_none (Nat.le_of_not_lt hlen)])

def KeepsRead (keep : ℕ → Bool) (titles : List String) : Prop :=
  ∀ (c : Column) (i : ℕ), (headed titles).place? c = some i → keep i = true

theorem KeepsRead.keeps {keep : ℕ → Bool} (h : KeepsRead keep titles) :
    Keeps (IsKept keep) titles := by
  intro c i hc
  refine ⟨_, ⟨h c i hc, rfl⟩, ?_⟩
  rintro j _ ⟨-, rfl⟩ htitle
  apply Nat.count_monotone
  by_contra hlt
  exact (place?_eq_some_iff.1 hc).2 j (by omega) htitle

theorem not_blank_select {keep : ℕ → Bool} {c : Column} {t : String} (hkeep : KeepsRead keep titles)
    (hcell : (headed titles).cell fields c = some t) :
    isBlankRecord (select keep fields) = false := by
  rw [cell_of_carries (carries_select keep titles) hkeep.keeps (carries_select keep fields)] at hcell
  exact not_isBlankRecord_of_cell hcell

/-! ### Tables -/

variable {d d' : Dialect} {source source' : Source} {R R' : List String → List String → Prop}
  {keep : ℕ → Bool} {rows : List Row}

theorem Rewritten.imp (h : Rewritten R d source d' source')
    (hR : ∀ fields fields', R fields fields' → R' fields fields') :
    Rewritten R' d source d' source' :=
  ⟨h.failure, h.records.imp fun _ _ _ hr => hr.mono hR⟩

theorem rewritten_of_texts {ts ts' : List (List String)}
    (hfailure : source.failureMet = source'.failureMet)
    (h : (Table.records d source).map (fun r => (recordTexts r).toOption) = ts.map some)
    (h' : (Table.records d' source').map (fun r => (recordTexts r).toOption) = ts'.map some)
    (hR : List.Forall₂ R ts ts') : Rewritten R d source d' source' := by
  refine ⟨hfailure, .of_forall₂ ?_⟩
  generalize Table.records d source = rs at h
  generalize Table.records d' source' = rs' at h'
  induction hR generalizing rs rs' with
  | nil =>
    rw [List.map_eq_nil_iff.1 h, List.map_eq_nil_iff.1 h']
    exact .nil
  | cons hR _ ih =>
    obtain ⟨r, rs, rfl, hr, hrs⟩ := List.map_eq_cons_iff.1 h
    obtain ⟨r', rs', rfl, hr', hrs'⟩ := List.map_eq_cons_iff.1 h'
    refine .cons ?_ (ih rs hrs rs' hrs')
    rw [Turned, toOption_eq_some_iff.1 hr, toOption_eq_some_iff.1 hr']
    exact .ok hR

def KeepsText (keep : ℕ → Bool) (r : Record) : Prop :=
  ∀ fields, recordTexts r = .ok fields → isBlankRecord (select keep fields) = true →
    isBlankRecord fields = true

theorem Rewritten.moves_select
    (h : Rewritten (fun fields fields' => fields' = select keep fields) d source d' source')
    (htext : ∀ r ∈ Table.records d source, KeepsText keep r) :
    Rewritten (Moves (IsKept keep)) d source d' source' := by
  refine ⟨h.failure, h.records.imp fun r hr r' hturned => (Agree.attach hturned).mono ?_⟩
  rintro fields _ ⟨rfl, hfields, -⟩
  have hcarries := carries_select keep fields
  refine ⟨hcarries, ?_⟩
  rw [Bool.eq_iff_iff]
  exact ⟨hcarries.blank, htext r hr fields hfields⟩

theorem titles?_append {before rest : List Record} {r : Record}
    (hbefore : ∀ b ∈ before, Blank b) (hr : recordTexts r = .ok titles)
    (hblank : isBlankRecord titles = false) : titles? (before ++ r :: rest) = some titles := by
  induction before with
  | nil => simp [titles?, hr, hblank]
  | cons b before ih =>
    obtain ⟨hb, hbefore⟩ := List.forall_mem_cons.1 hbefore
    rw [List.cons_append, titles?_of_blank hb, ih hbefore]

/-- Each record of a table that can be read is blank or has a cell that is read. -/
theorem exists_titles_of_read (h : (read d source).result = .ok rows) :
    ∃ titles, titles? (Table.records d source) = some titles ∧
      ∀ r ∈ Table.records d source, ∀ fields, recordTexts r = .ok fields →
        isBlankRecord fields = true ∨ ∃ c t, (headed titles).cell fields c = some t := by
  rw [result_read, bind_eq_ok_iff] at h
  obtain ⟨⟨header, rest⟩, hheader, hrows⟩ := h
  obtain ⟨before, head, titles, hsplit, hbefore, htitles, hblank, hof⟩ :=
    headerOf_eq_ok_iff.1 hheader
  rw [ofFields_eq] at hof
  split_ifs at hof with hplace
  cases hof
  rw [hsplit]
  refine ⟨titles, titles?_append hbefore htitles hblank, fun r hr fields hfields => ?_⟩
  rcases List.mem_append.1 hr with hr | hr
  · exact .inl ((hbefore r hr).isBlankRecord hfields)
  rcases List.mem_cons.1 hr with rfl | hr
  · -- the header has the title that is required
    rw [hfields] at htitles
    cases htitles
    obtain ⟨i, hi⟩ := Option.isSome_iff_exists.1 hplace
    refine .inr ⟨.propertyId, Column.propertyId.title, ?_⟩
    rw [cell_eq, hi, Option.bind_some]
    exact (place?_eq_some_iff.1 hi).1
  · -- a row has a property
    obtain ⟨-, found, hfound, -⟩ := rowsOf_eq_ok_iff.1 hrows
    obtain ⟨row?, -, hrow⟩ := exists_of_mem_left hfound hr
    cases row? with
    | none => exact .inl ((recordRow?_eq_ok_none_iff.1 hrow).isBlankRecord hfields)
    | some row =>
      obtain ⟨_, hfields', -, hrow⟩ := recordRow?_eq_ok_some_iff.1 hrow
      rw [hfields] at hfields'
      cases hfields'
      exact .inr ⟨.propertyId, _, (row_eq_ok hrow).1.symm⟩

theorem keepsText_of_read (h : (read d source).result = .ok rows)
    (hkeep : ∀ titles, titles? (Table.records d source) = some titles → KeepsRead keep titles) :
    ∀ r ∈ Table.records d source, KeepsText keep r := by
  obtain ⟨titles, htitles, hread⟩ := exists_titles_of_read h
  intro r hr fields hfields hselect
  rcases hread r hr fields hfields with hblank | ⟨c, t, hcell⟩
  · exact hblank
  · rw [not_blank_select (hkeep titles htitles) hcell] at hselect
    cases hselect

/-- Only the cells of columns with a meaning are read. -/
theorem read_of_cells (d d' : Dialect) (source source' : Source) :
    (∀ p : List ℕ, p.Perm (List.range p.length) →
      (∀ titles, titles? (Table.records d source) = some titles → Distinct titles) →
      Rewritten (fun fields fields' => fields' = rearrange p fields) d source d' source' →
        Agree SameError SameRows (read d source).result (read d' source').result) ∧
    (Rewritten (List.Forall₂ Padded) d source d' source' →
      Agree SameError SameRows (read d source).result (read d' source').result) ∧
    (Rewritten SameButEmptyEnd d source d' source' →
      Agree SameError SameRows (read d source).result (read d' source').result) ∧
    ∀ keep : ℕ → Bool,
      (∀ titles, titles? (Table.records d source) = some titles → KeepsRead keep titles) →
      Rewritten (fun fields fields' => fields' = select keep fields) d source d' source' →
        (∀ rows, (read d source).result = .ok rows →
          ∃ rows', (read d' source').result = .ok rows' ∧ SameRows rows rows') ∧
        ((∀ r ∈ Table.records d source, KeepsText keep r) →
          Agree SameError SameRows (read d source).result (read d' source').result) := by
  refine ⟨fun p hp hdistinct h => ?_, fun h => ?_, fun h => ?_, fun keep hkeep h => ?_⟩
  · have hmoves : Rewritten (Moves fun i k => p[k]?.getD k = i) d source d' source' := by
      apply h.imp
      rintro fields _ rfl
      exact moves_rearrange hp fields
    exact hmoves.agree_read fun titles ht => (hdistinct titles ht).keeps (exists_of_perm hp)
  · have hmoves := h.imp fun fields fields' hf => moves_of_textAt (textAt_of_padded hf)
    exact hmoves.agree_read fun titles _ => keeps_eq titles
  · have hmoves := h.imp fun fields fields' hf => moves_of_textAt (textAt_of_sameButEmptyEnd hf)
    exact hmoves.agree_read fun titles _ => keeps_eq titles
  · have hagree : (∀ r ∈ Table.records d source, KeepsText keep r) →
        Agree SameError SameRows (read d source).result (read d' source').result :=
      fun htext => (h.moves_select htext).agree_read fun titles ht => (hkeep titles ht).keeps
    refine ⟨fun rows hrows => ?_, hagree⟩
    have hread := hagree (keepsText_of_read hrows hkeep)
    rw [hrows] at hread
    generalize (read d' source').result = result at hread ⊢
    cases hread with
    | ok hsame => exact ⟨_, rfl, hsame⟩

def noted : Source := { bytes := Text.utf8 "note,propertyId\nx,p\n" }

def notedLast : Source := { bytes := Text.utf8 "propertyId,note\np,x\n" }

def unnoted : Source := { bytes := Text.utf8 "propertyId\np\n" }

/-- The first table with white space around its texts, and with empty cells after its last row. -/
def notedWide : Source := { bytes := Text.utf8 "note, propertyId\nx,\tp \n" }

def notedLong : Source := { bytes := Text.utf8 "note,propertyId\nx,p,,\n" }

theorem read_of_cells_of_noted : ∃ rows rows', (read {} noted).result = .ok rows ∧
    (read {} unnoted).result = .ok rows' ∧ SameRows rows rows' ∧
    Agree SameError SameRows (read {} noted).result (read {} notedLast).result ∧
    Agree SameError SameRows (read {} noted).result (read {} notedWide).result ∧
    Agree SameError SameRows (read {} noted).result (read {} notedLong).result := by
  have hfailure : ∀ bytes bytes', Source.failureMet { bytes } = Source.failureMet { bytes := bytes' } :=
    fun _ _ => by rw [Source.failureMet_bytes, Source.failureMet_bytes]
  have htexts : (Table.records {} noted).map (fun r => (recordTexts r).toOption) =
      [["note", "propertyId"], ["x", "p"]].map some := by decide +kernel
  have hlast : (Table.records {} notedLast).map (fun r => (recordTexts r).toOption) =
      [["propertyId", "note"], ["p", "x"]].map some := by decide +kernel
  have hnone : (Table.records {} unnoted).map (fun r => (recordTexts r).toOption) =
      [["propertyId"], ["p"]].map some := by decide +kernel
  have hwide : (Table.records {} notedWide).map (fun r => (recordTexts r).toOption) =
      [["note", " propertyId"], ["x", "\tp "]].map some := by decide +kernel
  have hlong : (Table.records {} notedLong).map (fun r => (recordTexts r).toOption) =
      [["note", "propertyId"], ["x", "p", "", ""]].map some := by decide +kernel
  have htitles : titles? (Table.records {} noted) = some ["note", "propertyId"] := by decide +kernel
  have hplace : ∀ c, (headed ["note", "propertyId"]).place? c =
      if c = .propertyId then some 1 else none := by
    intro c
    cases c <;> decide +kernel
  have hrows : (read {} noted).result = .ok [{ statement := { property := "p", line := 2 } }] :=
    toOption_eq_some_iff.1 (by decide +kernel)
  have hdistinct : Distinct ["note", "propertyId"] := distinct_of_nodup (by decide +kernel)
  have hkeep : KeepsRead (· == 1) ["note", "propertyId"] := by
    intro c i hc
    rw [hplace] at hc
    split_ifs at hc
    cases hc
    rfl
  have hsame : ∀ s, Padded s s := fun s => ⟨"", "", nofun, nofun, by simp⟩
  have hspace : ∀ c ∈ " ".toList, Text.isBlank c = true := List.all_eq_true.1 (by decide)
  have htab : ∀ c ∈ "\t".toList, Text.isBlank c = true := List.all_eq_true.1 (by decide)
  have htitle : Padded "propertyId" " propertyId" := ⟨" ", "", hspace, nofun, by decide⟩
  have hcell : Padded "p" "\tp " := ⟨"\t", " ", htab, hspace, by decide⟩
  obtain ⟨hrearrange, -, -, -⟩ := read_of_cells {} {} noted notedLast
  obtain ⟨-, -, -, hselect⟩ := read_of_cells {} {} noted unnoted
  obtain ⟨-, hpad, -, -⟩ := read_of_cells {} {} noted notedWide
  obtain ⟨-, -, hend, -⟩ := read_of_cells {} {} noted notedLong
  obtain ⟨hparses, -⟩ := hselect (· == 1) (by simpa [htitles] using hkeep)
    (rewritten_of_texts (hfailure _ _) htexts hnone (.cons rfl (.cons rfl .nil)))
  obtain ⟨rows', hrows', hrow⟩ := hparses _ hrows
  refine ⟨_, rows', hrows, hrows', hrow, ?_, ?_, ?_⟩
  · exact hrearrange [1, 0] (by decide) (by simpa [htitles] using hdistinct)
      (rewritten_of_texts (hfailure _ _) htexts hlast (.cons rfl (.cons rfl .nil)))
  · refine hpad (rewritten_of_texts (hfailure _ _) htexts hwide (.cons ?_ (.cons ?_ .nil)))
    · exact .cons (hsame _) (.cons htitle .nil)
    · exact .cons (hsame _) (.cons hcell .nil)
  · refine hend (rewritten_of_texts (hfailure _ _) htexts hlong (.cons ⟨0, ?_⟩ (.cons ⟨2, ?_⟩ .nil)))
    · exact .inl rfl
    · exact .inl rfl

end TabularShapes.Profile
