import TabularShapes.Schema.Check
import TabularShapes.Proofs.Name.Expansion
import Mathlib.Data.List.Nodup

/-! Sound schemas: every abbreviation is declared, and every reference names a shape that is there.
The check of a schema accepts exactly the sound ones. -/

namespace TabularShapes

theorem Value.reference?_eq_some_iff {v : Value} {n : Name} :
    v.reference? = some n ↔ v = .reference n := by
  cases v <;> simp [Value.reference?]

theorem Value.name?_eq_some_iff {v : Value} {n : Name} :
    v.name? = some n ↔ v = .datatype n ∨ v = .reference n := by
  cases v <;> simp [Value.name?]

namespace Schema

/-- What holds of a schema that can be written in every syntax. -/
structure Sound (s : Schema) : Prop where
  ids : ∀ d ∈ s.declarations, d.id.Declared s.prefixes
  predicates : ∀ d ∈ s.declarations, ∀ k ∈ d.constraints, k.predicate.Declared s.prefixes
  datatypes : ∀ d ∈ s.declarations, ∀ k ∈ d.constraints, ∀ n, k.value = .datatype n →
    n.Declared s.prefixes
  references : ∀ d ∈ s.declarations, ∀ k ∈ d.constraints, ∀ n, k.value = .reference n →
    ∃ t ∈ s.declarations, t.id = n

variable {s : Schema} {n : Name}

theorem declares_iff : s.declares n = true ↔ ∃ t ∈ s.declarations, t.id = n := by
  simp [declares, get?, List.find?_isSome]

theorem mem_names_iff :
    n ∈ s.names ↔ ∃ d ∈ s.declarations, n = d.id ∨ ∃ k ∈ d.constraints,
      n = k.predicate ∨ k.value = .datatype n ∨ k.value = .reference n := by
  simp [names, Declaration.names, Value.name?_eq_some_iff]

theorem dangling_eq_nil_iff :
    s.dangling = [] ↔ ∀ d ∈ s.declarations, ∀ k ∈ d.constraints, ∀ n, k.value = .reference n →
      ∃ t ∈ s.declarations, t.id = n := by
  simp only [dangling, Declaration.references, List.flatMap_eq_nil_iff, List.map_eq_nil_iff,
    List.filter_eq_nil_iff, List.mem_filterMap, Option.map_eq_some_iff,
    Value.reference?_eq_some_iff, ← declares_iff]
  refine ⟨?_, ?_⟩
  · intro h d hd k hk n hv
    simpa using h d hd (k.predicate, n) ⟨k, hk, n, hv, rfl⟩
  · rintro h d hd _ ⟨k, hk, n, hv, rfl⟩
    simpa using h d hd k hk n hv

theorem check_eq_ok_iff :
    s.check = .ok () ↔ (∀ n ∈ s.names, n.Declared s.prefixes) ∧ s.dangling = [] := by
  simp only [← Name.undeclared?_eq_none_iff]
  have hnames : (s.names.findSome? fun n => (n.undeclared? s.prefixes).map (n, ·)) = none ↔
      ∀ n ∈ s.names, n.undeclared? s.prefixes = none := by
    simp
  rw [← hnames, check]
  split
  · next h => simp [h]
  · next h =>
    split
    · next hd => simp [hd]
    · next hd => simp [h, hd]

theorem Sound.declared (h : s.Sound) (hn : n ∈ s.names) : n.Declared s.prefixes := by
  obtain ⟨d, hd, rfl | ⟨k, hk, rfl | hv | hv⟩⟩ := mem_names_iff.1 hn
  · exact h.ids d hd
  · exact h.predicates d hd k hk
  · exact h.datatypes d hd k hk n hv
  · -- a reference is the name of a shape, and these are declared
    obtain ⟨t, ht, rfl⟩ := h.references d hd k hk n hv
    exact h.ids t ht

theorem check_eq_ok_iff_sound : s.check = .ok () ↔ s.Sound := by
  rw [check_eq_ok_iff, dangling_eq_nil_iff]
  refine ⟨?_, fun h => ⟨fun n hn => h.declared hn, h.references⟩⟩
  rintro ⟨hn, hr⟩
  refine ⟨fun d hd => hn _ ?_, fun d hd k hk => hn _ ?_, fun d hd k hk n hv => hn _ ?_, hr⟩
  · exact mem_names_iff.2 ⟨d, hd, .inl rfl⟩
  · exact mem_names_iff.2 ⟨d, hd, .inr ⟨k, hk, .inl rfl⟩⟩
  · exact mem_names_iff.2 ⟨d, hd, .inr ⟨k, hk, .inr (.inl hv)⟩⟩

theorem put_of_notMem {d : Declaration} {ds : List Declaration} (h : d.id ∉ ds.map (·.id)) :
    put d ds = (ds ++ [d], none) := by
  induction ds with
  | nil => rfl
  | cons e rest ih =>
    simp only [List.map_cons, List.mem_cons, not_or] at h
    simp [put, Ne.symm h.1, ih h.2]

/-- Declarations of different names stand in a schema as they were added. -/
theorem addAll_of_nodup {ds : List Declaration}
    (h : ((s.declarations ++ ds).map (·.id)).Nodup) :
    s.addAll ds = ⟨s.prefixes, s.declarations ++ ds⟩ := by
  induction ds generalizing s with
  | nil => simp [addAll]
  | cons d rest ih =>
    have hd : d.id ∉ s.declarations.map (·.id) := by
      simp only [List.map_append, List.map_cons] at h
      intro hm
      exact (List.nodup_append.1 h).2.2 _ hm _ List.mem_cons_self rfl
    have hadd : s.add d = ⟨s.prefixes, s.declarations ++ [d]⟩ := by
      simp [add, exchange, put_of_notMem hd]
    have hrest : s.addAll (d :: rest) = (s.add d).addAll rest := rfl
    rw [hrest, hadd, ih (by simpa using h)]
    simp

end Schema

end TabularShapes
