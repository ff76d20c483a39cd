import TabularShapes.Compile.Compiler
import TabularShapes.Proofs.Name.Expansion
import TabularShapes.Proofs.Outcome
import Mathlib.Data.List.Nodup

/-! The names of shapes. A name stands for the IRI that it expands to. Naming the shapes of a profile
succeeds if their names stand for pairwise different IRIs, and ends else at the first shape whose
name cannot be used or stands for the IRI of a shape before it. -/

namespace TabularShapes

theorem lookup_eq_some_iff_mem {α β : Type} [BEq α] [LawfulBEq α] {l : List (α × β)} {k : α} {v : β}
    (h : (l.map (·.1)).Nodup) : l.lookup k = some v ↔ (k, v) ∈ l := by
  induction l with
  | nil => simp
  | cons p l ih =>
    obtain ⟨k', v'⟩ := p
    simp only [List.map_cons, List.nodup_cons] at h
    by_cases hk : k = k'
    · subst hk
      have hn : (k, v) ∉ l := fun hm => h.1 (List.mem_map_of_mem hm)
      simp [hn, eq_comm]
    · simp [List.lookup_cons, beq_false_of_ne hk, hk, ih h.2]

namespace Compiler

variable {c : Compiler} {text : String} {n : Name} {iri : String} {e : CompileError}

/-- The IRI that a text stands for, if it is a name that is written in full or of a declared
namespace. -/
def iri? (c : Compiler) (text : String) : Option String :=
  (Name.read text).toOption.bind (·.expand c.prefixes)

inductive NameFault (c : Compiler) (text : String) : CompileError → Prop
  | invalid {cause : NameTextError} (hr : Name.read text = .error cause) :
      NameFault c text (.invalidName text cause)
  | undeclared {n : Name} {space : String} (hr : Name.read text = .ok n)
      (hu : n.undeclared? c.prefixes = some space) :
      NameFault c text (.undeclaredPrefix text space)

theorem iri?_of_read (hr : Name.read text = .ok n) : c.iri? text = n.expand c.prefixes := by
  simp [iri?, hr, Except.toOption]

theorem iri?_eq_some_iff :
    c.iri? text = some iri ↔ ∃ n, Name.read text = .ok n ∧ n.expand c.prefixes = some iri := by
  cases hr : Name.read text <;> simp [iri?, hr, Except.toOption]

theorem parse_eq_ok_iff : parse text = .ok n ↔ Name.read text = .ok n :=
  mapError_eq_ok_iff

theorem checkDeclared_eq_ok_iff {n' : Name} :
    c.checkDeclared text n = .ok n' ↔ n = n' ∧ n.Declared c.prefixes := by
  rw [← Name.undeclared?_eq_none_iff]
  cases h : n.undeclared? c.prefixes <;> simp [checkDeclared, h]

theorem declaredName_eq_ok_iff :
    c.declaredName text = .ok n ↔ Name.read text = .ok n ∧ n.Declared c.prefixes := by
  simp only [declaredName, bind_eq_ok_iff, parse_eq_ok_iff, checkDeclared_eq_ok_iff]
  refine ⟨?_, ?_⟩
  · rintro ⟨n, hr, rfl, hd⟩
    exact ⟨hr, hd⟩
  · rintro ⟨hr, hd⟩
    exact ⟨n, hr, rfl, hd⟩

theorem declaredName_eq_error_iff : c.declaredName text = .error e ↔ c.NameFault text e := by
  refine ⟨?_, ?_⟩
  · intro h
    cases hr : Name.read text with
    | error cause =>
      obtain rfl : .invalidName text cause = e := by
        simpa [declaredName, parse, hr, Except.mapError, bind, Except.bind] using h
      exact .invalid hr
    | ok n =>
      cases hu : n.undeclared? c.prefixes with
      | none =>
        simp [declaredName, parse, checkDeclared, hr, hu, Except.mapError, bind, Except.bind] at h
      | some space =>
        obtain rfl : .undeclaredPrefix text space = e := by
          simpa [declaredName, parse, checkDeclared, hr, hu, Except.mapError, bind,
            Except.bind] using h
        exact .undeclared hr hu
  · rintro (hr | ⟨hr, hu⟩)
    · simp [declaredName, parse, hr, Except.mapError, bind, Except.bind]
    · simp [declaredName, parse, checkDeclared, hr, hu, Except.mapError, bind, Except.bind]

theorem NameFault.of_prefixes {c' : Compiler} (h : c.NameFault text e)
    (hm : c'.prefixes = c.prefixes) : c'.NameFault text e := by
  cases h with
  | invalid hr => exact .invalid hr
  | undeclared hr hu => exact .undeclared hr (hm ▸ hu)

theorem exists_iri?_iff :
    (∃ iri, c.iri? text = some iri) ↔ ∃ n, Name.read text = .ok n ∧ n.Declared c.prefixes := by
  simp only [iri?_eq_some_iff, ← Name.exists_expand_iff]
  refine ⟨?_, ?_⟩
  · rintro ⟨iri, n, hr, hx⟩
    exact ⟨n, hr, iri, hx⟩
  · rintro ⟨n, hr, iri, hx⟩
    exact ⟨iri, n, hr, hx⟩

theorem iri?_of_declaredName (h : c.declaredName text = .ok n) :
    c.iri? text = some (n.identity c.prefixes) := by
  obtain ⟨hr, hd⟩ := declaredName_eq_ok_iff.1 h
  obtain ⟨iri, hx⟩ := Name.exists_expand_iff.2 hd
  rw [iri?_of_read hr, hx, Name.identity_of_expand hx]

theorem declaredName_of_iri? (h : c.iri? text = some iri) :
    ∃ n, c.declaredName text = .ok n ∧ n.identity c.prefixes = iri := by
  obtain ⟨n, hr, hx⟩ := iri?_eq_some_iff.1 h
  exact ⟨n, declaredName_eq_ok_iff.2 ⟨hr, Name.declared_of_expand hx⟩, Name.identity_of_expand hx⟩

/-- What the table holds for a shape: the IRI that its name stands for, and the name. -/
def Entry (c : Compiler) (s : Profile.Shape) (entry : String × Name) : Prop :=
  Name.read s.id = .ok entry.2 ∧ entry.2.expand c.prefixes = some entry.1

/-- Why a shape cannot be named when the IRIs in `seen` are taken. -/
inductive IdFault (c : Compiler) (seen : List String) (s : Profile.Shape) : CompileError → Prop
  | name {e : CompileError} (h : c.NameFault s.id e) : IdFault c seen s e
  | repeated {iri : String} (h : c.iri? s.id = some iri) (hm : iri ∈ seen) :
      IdFault c seen s (.duplicateShape s.id s.line)

def nameShape (c : Compiler) (seen : List String) (s : Profile.Shape) :
    Except CompileError (String × Name) := do
  let id ← c.declaredName s.id
  if id.identity c.prefixes ∈ seen then .error (.duplicateShape s.id s.line)
  else return (id.identity c.prefixes, id)

variable {seen : List String} {s : Profile.Shape} {rest shapes : List Profile.Shape}
  {entry : String × Name} {table : ShapeTable}

theorem nameShapes_cons :
    c.nameShapes seen (s :: rest) = c.nameShape seen s >>= fun entry =>
      (c.nameShapes (entry.1 :: seen) rest).map (entry :: ·) := by
  simp only [nameShapes, nameShape]
  cases c.declaredName s.id with
  | error e => rfl
  | ok id =>
    simp only [bind, Except.bind, pure, Except.pure]
    split
    · rfl
    · dsimp only
      cases c.nameShapes (id.identity c.prefixes :: seen) rest <;> rfl

/-- Naming depends on the namespaces of the compiler only. -/
theorem nameShapes_of_prefixes {c' : Compiler} (h : c'.prefixes = c.prefixes) :
    c'.nameShapes seen shapes = c.nameShapes seen shapes := by
  have hname : ∀ seen s, c'.nameShape seen s = c.nameShape seen s := by
    intro seen s
    simp only [nameShape, declaredName, checkDeclared, h]
  induction shapes generalizing seen with
  | nil => rfl
  | cons s rest ih =>
    rw [nameShapes_cons, nameShapes_cons, hname]
    simp only [ih]

theorem nameShape_eq_ok_iff :
    c.nameShape seen s = .ok entry ↔ c.Entry s entry ∧ entry.1 ∉ seen := by
  simp only [nameShape, bind_eq_ok_iff, declaredName_eq_ok_iff]
  refine ⟨?_, ?_⟩
  · rintro ⟨id, ⟨hr, hd⟩, h⟩
    obtain ⟨iri, hx⟩ := Name.exists_expand_iff.2 hd
    rw [Name.identity_of_expand hx] at h
    split at h
    · cases h
    · next hm =>
      cases h
      exact ⟨⟨hr, hx⟩, hm⟩
  · rintro ⟨⟨hr, hx⟩, hm⟩
    refine ⟨entry.2, ⟨hr, Name.declared_of_expand hx⟩, ?_⟩
    rw [Name.identity_of_expand hx, if_neg hm]
    rfl

theorem nameShape_eq_error_iff : c.nameShape seen s = .error e ↔ c.IdFault seen s e := by
  simp only [nameShape, bind_eq_error_iff, declaredName_eq_error_iff]
  refine ⟨?_, ?_⟩
  · rintro (h | ⟨id, hd, h⟩)
    · exact .name h
    · split at h
      · next hm =>
        cases h
        exact .repeated (iri?_of_declaredName hd) hm
      · cases h
  · rintro (h | ⟨h, hm⟩)
    · exact .inl h
    · obtain ⟨id, hd, rfl⟩ := declaredName_of_iri? h
      exact .inr ⟨id, hd, if_pos hm⟩

/-- The table has the entries of the shapes in order, with pairwise different IRIs that are not
taken. -/
theorem nameShapes_eq_ok_iff :
    c.nameShapes seen shapes = .ok table ↔
      List.Forall₂ c.Entry shapes table ∧ (table.map (·.1)).Nodup ∧
        ∀ iri ∈ table.map (·.1), iri ∉ seen := by
  induction shapes generalizing seen table with
  | nil =>
    cases table <;> simp [nameShapes]
  | cons s rest ih =>
    simp only [nameShapes_cons, bind_eq_ok_iff, map_eq_ok_iff, nameShape_eq_ok_iff, ih]
    -- the IRI of `s` is taken for the rest, which keeps it apart from every later one
    refine ⟨?_, ?_⟩
    · rintro ⟨entry, ⟨he, hn⟩, table, ⟨hf, hd, hs⟩, rfl⟩
      simp only [List.mem_cons, not_or] at hs
      refine ⟨.cons he hf, ?_, ?_⟩
      · simp only [List.map_cons, List.nodup_cons]
        exact ⟨fun hm => (hs _ hm).1 rfl, hd⟩
      · simp only [List.map_cons, List.forall_mem_cons]
        exact ⟨hn, fun iri hm => (hs iri hm).2⟩
    · rintro ⟨hf, hd, hs⟩
      cases hf with
      | @cons _ entry _ table he hf =>
        simp only [List.map_cons, List.nodup_cons, List.forall_mem_cons] at hd hs
        refine ⟨entry, ⟨he, hs.1⟩, table, ⟨hf, hd.2, fun iri hm => ?_⟩, rfl⟩
        simp only [List.mem_cons, not_or]
        exact ⟨fun h => hd.1 (h ▸ hm), hs.2 iri hm⟩

theorem IdFault.mono {seen' : List String} (h : c.IdFault seen s e)
    (hs : ∀ iri ∈ seen, iri ∈ seen') : c.IdFault seen' s e := by
  cases h with
  | name h => exact .name h
  | repeated h hm => exact .repeated h (hs _ hm)

theorem nameShapes_eq_error_iff :
    c.nameShapes seen shapes = .error e ↔
      ∃ before s after table, shapes = before ++ s :: after ∧
        c.nameShapes seen before = .ok table ∧ c.IdFault (table.map (·.1) ++ seen) s e := by
  induction shapes generalizing seen with
  | nil => simp [nameShapes]
  | cons s rest ih =>
    rw [nameShapes_cons, bind_eq_error_iff, nameShape_eq_error_iff]
    simp only [map_eq_error_iff, ih]
    refine ⟨?_, ?_⟩
    · rintro (h | ⟨entry, he, before, s', after, table, rfl, hb, h⟩)
      · exact ⟨[], s, rest, [], rfl, rfl, h⟩
      · refine ⟨s :: before, s', after, entry :: table, rfl, ?_, h.mono ?_⟩
        · rw [nameShapes_cons, he]
          exact map_eq_ok_iff.2 ⟨table, hb, rfl⟩
        · simp only [List.map_cons, List.mem_append, List.mem_cons]
          rintro iri (hm | rfl | hm)
          · exact .inl (.inr hm)
          · exact .inl (.inl rfl)
          · exact .inr hm
    · rintro ⟨before, s', after, table, heq, hb, h⟩
      cases before with
      | nil =>
        cases hb
        cases heq
        exact .inl h
      | cons b before =>
        cases heq
        rw [nameShapes_cons] at hb
        obtain ⟨entry, he, ht⟩ := bind_eq_ok_iff.1 hb
        obtain ⟨table, hr, rfl⟩ := map_eq_ok_iff.1 ht
        refine .inr ⟨entry, he, before, s', after, table, rfl, hr, h.mono ?_⟩
        simp only [List.map_cons, List.mem_append, List.mem_cons]
        rintro iri ((rfl | hm) | hm)
        · exact .inr (.inl rfl)
        · exact .inl hm
        · exact .inr (.inr hm)

def iris (c : Compiler) (shapes : List Profile.Shape) : List String :=
  shapes.filterMap fun s => c.iri? s.id

theorem Entry.iri? (h : c.Entry s entry) : c.iri? s.id = some entry.1 :=
  iri?_eq_some_iff.2 ⟨entry.2, h⟩

theorem Entry.declaredName (h : c.Entry s entry) : c.declaredName s.id = .ok entry.2 :=
  declaredName_eq_ok_iff.2 ⟨h.1, Name.declared_of_expand h.2⟩

theorem map_fst_of_entries (h : List.Forall₂ c.Entry shapes table) :
    table.map (·.1) = c.iris shapes := by
  induction h with
  | nil => rfl
  | cons he _ ih => simp [iris, he.iri?, ih]

theorem exists_entries_iff :
    (∃ table, List.Forall₂ c.Entry shapes table) ↔
      ∀ s ∈ shapes, ∃ n, Name.read s.id = .ok n ∧ n.Declared c.prefixes := by
  simp only [← exists_iri?_iff]
  induction shapes with
  | nil => simp
  | cons s rest ih =>
    simp only [List.forall_mem_cons, ← ih, List.forall₂_cons_left_iff]
    refine ⟨?_, ?_⟩
    · rintro ⟨_, entry, table, he, ht, -⟩
      exact ⟨⟨_, he.iri?⟩, table, ht⟩
    · rintro ⟨⟨iri, hi⟩, table, ht⟩
      obtain ⟨n, hn⟩ := iri?_eq_some_iff.1 hi
      exact ⟨(iri, n) :: table, (iri, n), table, hn, ht, rfl⟩

/-- What holds of shapes that can be named: each name can be used, and no two stand for the same
IRI. -/
structure Nameable (c : Compiler) (shapes : List Profile.Shape) : Prop where
  named : ∀ s ∈ shapes, ∃ n, Name.read s.id = .ok n ∧ n.Declared c.prefixes
  distinct : (c.iris shapes).Nodup

theorem entries_of_nameShapes (h : c.nameShapes [] shapes = .ok table) :
    List.Forall₂ c.Entry shapes table :=
  (nameShapes_eq_ok_iff.1 h).1

theorem map_fst_of_nameShapes (h : c.nameShapes [] shapes = .ok table) :
    table.map (·.1) = c.iris shapes :=
  map_fst_of_entries (entries_of_nameShapes h)

theorem exists_nameShapes_iff : (∃ table, c.nameShapes [] shapes = .ok table) ↔ c.Nameable shapes := by
  refine ⟨?_, ?_⟩
  · rintro ⟨table, h⟩
    obtain ⟨hf, hd, -⟩ := nameShapes_eq_ok_iff.1 h
    exact ⟨exists_entries_iff.1 ⟨table, hf⟩, map_fst_of_entries hf ▸ hd⟩
  · intro h
    obtain ⟨table, hf⟩ := exists_entries_iff.2 h.named
    refine ⟨table, nameShapes_eq_ok_iff.2 ⟨hf, ?_, by simp⟩⟩
    rw [map_fst_of_entries hf]
    exact h.distinct

theorem nameShapes_fails_iff :
    c.nameShapes [] shapes = .error e ↔
      ∃ before s after, shapes = before ++ s :: after ∧ c.Nameable before ∧
        c.IdFault (c.iris before) s e := by
  rw [nameShapes_eq_error_iff]
  simp only [List.append_nil]
  refine ⟨?_, ?_⟩
  · rintro ⟨before, s, after, table, rfl, hb, h⟩
    exact ⟨before, s, after, rfl, exists_nameShapes_iff.1 ⟨table, hb⟩, map_fst_of_nameShapes hb ▸ h⟩
  · rintro ⟨before, s, after, rfl, hb, h⟩
    obtain ⟨table, hb⟩ := exists_nameShapes_iff.2 hb
    exact ⟨before, s, after, table, rfl, hb, map_fst_of_nameShapes hb ▸ h⟩

theorem Entry.unique {entry' : String × Name} (h : c.Entry s entry) (h' : c.Entry s entry') :
    entry = entry' := by
  obtain ⟨iri, n⟩ := entry
  obtain ⟨iri', n'⟩ := entry'
  obtain rfl : n = n' := by simpa using h.1.symm.trans h'.1
  obtain rfl : iri = iri' := by simpa using h.2.symm.trans h'.2
  rfl

theorem mem_table_iff (h : List.Forall₂ c.Entry shapes table) :
    entry ∈ table ↔ ∃ s ∈ shapes, c.Entry s entry := by
  induction h with
  | nil => simp
  | @cons s entry' rest table he _ ih =>
    simp only [List.mem_cons, ih, exists_eq_or_imp]
    refine or_congr ⟨fun h => h ▸ he, fun h => h.unique he⟩ Iff.rfl

theorem lookup_eq_some_iff (h : c.nameShapes [] shapes = .ok table) :
    table.lookup iri = some n ↔
      ∃ s ∈ shapes, Name.read s.id = .ok n ∧ n.expand c.prefixes = some iri := by
  obtain ⟨hf, hd, -⟩ := nameShapes_eq_ok_iff.1 h
  have hm : table.lookup iri = some n ↔ (iri, n) ∈ table := lookup_eq_some_iff_mem hd
  rw [hm, mem_table_iff hf]
  rfl

theorem lookup_eq_none_iff (h : c.nameShapes [] shapes = .ok table) :
    table.lookup iri = none ↔ ∀ s ∈ shapes, c.iri? s.id ≠ some iri := by
  rw [← not_iff_not, ← ne_eq, Option.ne_none_iff_exists']
  simp only [lookup_eq_some_iff h, not_forall, not_not, ne_eq, iri?_eq_some_iff]
  refine ⟨?_, ?_⟩
  · rintro ⟨n, s, hs, hn⟩
    exact ⟨s, hs, n, hn⟩
  · rintro ⟨s, hs, n, hn⟩
    exact ⟨n, s, hs, hn⟩

end Compiler

end TabularShapes
