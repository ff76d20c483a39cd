import TabularShapes.Proofs.Profile.Concatenation

/-! Profiles record by record. The header is the first record that is not blank, and each later record
gives its row or none. A reading that fails does so over one of its records, over the end of its
source, or for want of a header. -/

namespace TabularShapes.Profile

open Table (Dialect Record Source)

variable {failure : Option String} {header : Header} {rs rest : List Record} {r : Record}
  {rows : List Row} {row : Row} {e : ReadError} {fields : List String} {line : ℕ}

/-! ### Headers -/

theorem headerOf_eq_ok_iff : headerOf failure rs = .ok (header, rest) ↔
    ∃ before r fields, rs = before ++ r :: rest ∧ (∀ b ∈ before, Blank b) ∧
      recordTexts r = .ok fields ∧ isBlankRecord fields = false ∧
        Header.ofFields fields = .ok header := by
  induction rs with
  | nil => cases failure <;> simp [headerOf, ending, bind, Except.bind]
  | cons r rs ih =>
    constructor
    · intro h
      cases hr : recordTexts r with
      | error e => simp [headerOf, hr, bind, Except.bind] at h
      | ok fields =>
        rw [headerOf_cons hr] at h
        split_ifs at h with hblank
        · obtain ⟨before, r', fields', rfl, hbefore, hheader⟩ := ih.1 h
          refine ⟨r :: before, r', fields', rfl, ?_, hheader⟩
          exact List.forall_mem_cons.2 ⟨⟨fields, hr, hblank⟩, hbefore⟩
        · obtain ⟨header', hheader, heq⟩ := map_eq_ok_iff.1 h
          cases heq
          exact ⟨[], r, fields, rfl, by simp, hr, by simpa using hblank, hheader⟩
    · rintro ⟨before, r', fields, heq, hbefore, hr', hblank, hheader⟩
      cases before with
      | nil =>
        cases heq
        rw [headerOf_cons hr', hblank, hheader]
        rfl
      | cons b before =>
        cases heq
        obtain ⟨⟨fields', hr, hblank'⟩, hbefore⟩ := List.forall_mem_cons.1 hbefore
        rw [headerOf_cons hr, if_pos hblank']
        exact ih.2 ⟨before, r', fields, rfl, hbefore, hr', hblank, hheader⟩

theorem headerOf_eq_error (h : headerOf failure rs = .error e) :
    (∃ r ∈ rs, recordTexts r = .error e) ∨ ending failure = .error e ∨ e = .missingHeader ∨
      e = .missingColumn .propertyId := by
  induction rs with
  | nil =>
    rw [headerOf, bind_eq_error_iff] at h
    rcases h with h | ⟨-, -, h⟩
    · exact .inr (.inl h)
    · cases h
      exact .inr (.inr (.inl rfl))
  | cons r rs ih =>
    cases hr : recordTexts r with
    | error e' =>
      rw [headerOf, hr] at h
      cases h
      exact .inl ⟨r, List.mem_cons_self, hr⟩
    | ok fields =>
      rw [headerOf_cons hr] at h
      split_ifs at h
      · rcases ih h with ⟨r', hr', he⟩ | he
        · exact .inl ⟨r', List.mem_cons_of_mem r hr', he⟩
        · exact .inr he
      · rw [map_eq_error_iff, Header.ofFields] at h
        split_ifs at h
        cases h
        exact .inr (.inr (.inr rfl))

/-! ### Rows -/

theorem rowsOf_nil_eq_ok_iff :
    (rowsOf header failure []).result = .ok rows ↔ failure = none ∧ rows = [] := by
  cases failure <;> simp [rowsOf, ending, bind_eq_ok_iff, @eq_comm _ [] rows]

theorem rowsOf_eq_ok_iff : (rowsOf header failure rs).result = .ok rows ↔ failure = none ∧
    ∃ found, List.Forall₂ (fun r row? => recordRow? header r = .ok row?) rs found ∧
      rows = found.flatMap Option.toList := by
  induction rs generalizing rows with
  | nil => simp [rowsOf_nil_eq_ok_iff]
  | cons r rs ih =>
    simp only [result_rowsOf_cons, bind_eq_ok_iff, map_eq_ok_iff, ih, List.forall₂_cons_left_iff]
    constructor
    · rintro ⟨row?, hrow, _, ⟨hfailure, found, hfound, rfl⟩, rfl⟩
      exact ⟨hfailure, row? :: found, ⟨row?, found, hrow, hfound, rfl⟩, rfl⟩
    · rintro ⟨hfailure, _, ⟨row?, found, hrow, hfound, rfl⟩, rfl⟩
      exact ⟨row?, hrow, _, ⟨hfailure, found, hfound, rfl⟩, rfl⟩

/-- The rows fail with the first record that fails, or with their source. -/
theorem rowsOf_eq_error_iff : (rowsOf header failure rs).result = .error e ↔
    First (fun r e => recordRow? header r = .error e) rs e ∨
      (∀ r ∈ rs, ∃ row?, recordRow? header r = .ok row?) ∧ ending failure = .error e := by
  induction rs with
  | nil => simp [rowsOf, not_first_nil, bind_eq_error_iff]
  | cons r rs ih =>
    rw [result_rowsOf_cons, bind_eq_error_iff, first_cons_iff]
    simp only [map_eq_error_iff, ih, List.forall_mem_cons]
    cases recordRow? header r <;> simp

theorem recordRow?_eq_ok_some_iff : recordRow? header r = .ok (some row) ↔
    ∃ fields, recordTexts r = .ok fields ∧ isBlankRecord fields = false ∧
      header.row r.start.line fields = .ok row := by
  simp only [recordRow?, bind_eq_ok_iff]
  refine exists_congr fun fields => and_congr_right fun _ => ?_
  cases isBlankRecord fields <;> simp [map_eq_ok_iff, pure, Except.pure]

theorem recordRow?_eq_ok_none_iff : recordRow? header r = .ok none ↔ Blank r := by
  simp only [recordRow?, bind_eq_ok_iff, Blank]
  refine exists_congr fun fields => and_congr_right fun _ => ?_
  cases isBlankRecord fields <;> simp [map_eq_ok_iff, pure, Except.pure]

theorem recordRow?_eq_error_iff : recordRow? header r = .error e ↔ recordTexts r = .error e ∨
    ∃ fields, recordTexts r = .ok fields ∧ isBlankRecord fields = false ∧
      header.row r.start.line fields = .error e := by
  simp only [recordRow?, bind_eq_error_iff]
  refine or_congr_right (exists_congr fun fields => and_congr_right fun _ => ?_)
  cases isBlankRecord fields <;> simp [map_eq_error_iff, pure, Except.pure]

inductive RowFault (line : ℕ) : ReadError → Prop
  | missingProperty : RowFault line (.missingProperty line)
  | invalidBoolean (column : Column) (value : String) :
      RowFault line (.invalidBoolean line column value)
  | invalidNodeType (value : String) : RowFault line (.invalidNodeType line value)

theorem rowFault_of_readFlag {column : Column} {text : Option String}
    (h : readFlag line column text = .error e) : RowFault line e := by
  cases text with
  | none => cases h
  | some text =>
    rw [readFlag] at h
    split_ifs at h
    cases h
    exact .invalidBoolean column text

theorem rowFault_of_readNodeKind {text : Option String}
    (h : readNodeKind line text = .error e) : RowFault line e := by
  cases text with
  | none => cases h
  | some text =>
    rw [readNodeKind] at h
    split at h <;> cases h
    exact .invalidNodeType text

theorem rowFault_of_row (h : header.row line fields = .error e) : RowFault line e := by
  rw [Header.row] at h
  split at h
  · rcases bind_eq_error_iff.1 h with h | ⟨kind, -, h⟩
    · exact rowFault_of_readNodeKind h
    · rcases bind_eq_error_iff.1 h with h | ⟨mandatory, -, h⟩
      · exact rowFault_of_readFlag h
      · rcases bind_eq_error_iff.1 h with h | ⟨repeatable, -, h⟩
        · exact rowFault_of_readFlag h
        · cases h
  · cases h
    exact .missingProperty

end TabularShapes.Profile
