import TabularShapes.Proofs.Schema.Index
import Mathlib.Data.Finset.Card

/-! Schemas as maps that keep their order. After any changes each name stands once, where it was first
added, and has the declaration that was last added under it. One more declaration takes the place of
the one of its name, which is given back, or stands at the end, and all others stay where they are.
With the positions of the declarations in an index the answers are the same. -/

namespace TabularShapes.Schema

def added (changes : List Change) : List Declaration :=
  changes.filterMap fun
    | .prefixes _ => none
    | .add d => some d

def Indexed.get? (s : Indexed) (id : Name) : Option Declaration :=
  (s.index.lookup id).bind fun i => s.schema.declarations[i]?

/-- What holds of a schema, and of its answers for a name, after the declarations were added. -/
structure Maps (s : Schema) (ds : List Declaration) (get? : Name → Option Declaration)
    (declares : Name → Bool) : Prop where
  distinct : (s.declarations.map (·.id)).Nodup
  /-- The names stand in the order in which they were first added. -/
  order : s.declarations.map (·.id) = (ds.map (·.id)).eraseDups
  /-- A name has the declaration that was last added under it. -/
  last : ∀ id, get? id = ds.findRev? (·.id == id)
  stands : ∀ d ∈ s.declarations, get? d.id = some d
  declares : ∀ id, declares id = (get? id).isSome
  /-- There are as many declarations as there are names. -/
  size : s.size = (ds.map (·.id)).toFinset.card

/-- What adding a declaration makes of a schema, and what it gives back. -/
inductive Adds (s : Schema) (d : Declaration) : Schema × Option Declaration → Prop
  | replaced {i : ℕ} {e : Declaration} (hi : s.declarations[i]? = some e) (hid : e.id = d.id) :
      Adds s d ({ s with declarations := s.declarations.set i d }, some e)
  | appended (hnew : ∀ e ∈ s.declarations, e.id ≠ d.id) :
      Adds s d ({ s with declarations := s.declarations ++ [d] }, none)

/-! ### One more declaration -/

theorem put_cases (d : Declaration) (ds : List Declaration) :
    (∃ i e, ds[i]? = some e ∧ e.id = d.id ∧ put d ds = (ds.set i d, some e)) ∨
      (∀ e ∈ ds, e.id ≠ d.id) ∧ put d ds = (ds ++ [d], none) := by
  induction ds with
  | nil => exact .inr ⟨by simp, rfl⟩
  | cons e ds ih =>
    by_cases he : e.id = d.id
    · exact .inl ⟨0, e, rfl, he, by simp [put, he]⟩
    · rw [put, if_neg he]
      obtain ⟨i, f, hi, hf, hput⟩ | ⟨hnew, hput⟩ := ih
      · rw [hput]
        exact .inl ⟨i + 1, f, hi, hf, rfl⟩
      · rw [hput]
        exact .inr ⟨List.forall_mem_cons.2 ⟨he, hnew⟩, rfl⟩

theorem adds_exchange (s : Schema) (d : Declaration) : s.Adds d (s.exchange d) := by
  unfold exchange
  obtain ⟨i, e, hi, he, hput⟩ | ⟨hnew, hput⟩ := put_cases d s.declarations
  · rw [hput]
    exact .replaced hi he
  · rw [hput]
    exact .appended hnew

theorem map_id_add (s : Schema) (d : Declaration) :
    (s.add d).declarations.map (·.id) =
      if d.id ∈ s.declarations.map (·.id) then s.declarations.map (·.id)
      else s.declarations.map (·.id) ++ [d.id] := by
  unfold add
  generalize hr : s.exchange d = r
  have hadds := s.adds_exchange d
  rw [hr] at hadds
  cases hadds with
  | @replaced i e hi he =>
    have hid : (s.declarations.map (·.id))[i]? = some d.id := by
      rw [List.getElem?_map, hi, Option.map_some, he]
    rw [if_pos (List.mem_of_getElem? hid)]
    exact Indexed.map_id_set hid
  | appended hnew =>
    have hnot : d.id ∉ s.declarations.map (·.id) := by
      intro hmem
      obtain ⟨e, he, hid⟩ := List.mem_map.1 hmem
      exact hnew e he hid
    rw [if_neg hnot, List.map_append, List.map_singleton]

/-! ### Runs -/

theorem run_concat_prefixes (changes : List Change) (m : PrefixMap) :
    run (changes ++ [.prefixes m]) = (run changes).withPrefixes m :=
  List.foldl_concat ..

theorem run_concat_add (changes : List Change) (d : Declaration) :
    run (changes ++ [.add d]) = (run changes).add d :=
  List.foldl_concat ..

theorem added_concat_prefixes (changes : List Change) (m : PrefixMap) :
    added (changes ++ [.prefixes m]) = added changes := by
  simp [added]

theorem added_concat_add (changes : List Change) (d : Declaration) :
    added (changes ++ [.add d]) = added changes ++ [d] := by
  simp [added]

theorem get?_run (changes : List Change) (id : Name) :
    (run changes).get? id = (added changes).findRev? (·.id == id) := by
  induction changes using List.reverseRecOn with
  | nil => rfl
  | append_singleton changes c ih =>
    cases c with
    | prefixes m =>
      rw [run_concat_prefixes, added_concat_prefixes]
      exact ih
    | add d => rw [run_concat_add, added_concat_add, get?_add, findRev?_concat, ih]

theorem map_id_run (changes : List Change) :
    (run changes).declarations.map (·.id) = ((added changes).map (·.id)).eraseDups := by
  induction changes using List.reverseRecOn with
  | nil => rfl
  | append_singleton changes c ih =>
    cases c with
    | prefixes m =>
      rw [run_concat_prefixes, added_concat_prefixes]
      exact ih
    | add d =>
      rw [run_concat_add, added_concat_add, map_id_add, List.map_append, List.map_singleton,
        eraseDups_concat, ih]
      simp only [List.mem_eraseDups]

theorem nodup_run (changes : List Change) : ((run changes).declarations.map (·.id)).Nodup := by
  rw [map_id_run]
  exact nodup_eraseDups _

/-! ### Answers -/

theorem get?_id_run {changes : List Change} {d : Declaration}
    (hd : d ∈ (run changes).declarations) : (run changes).get? d.id = some d :=
  (mem_iff_find? (nodup_run changes)).1 hd

theorem size_run (changes : List Change) :
    (run changes).size = ((added changes).map (·.id)).toFinset.card := by
  -- the names of the schema are different and are those that were added
  have hids : ((run changes).declarations.map (·.id)).toFinset =
      ((added changes).map (·.id)).toFinset := by
    ext id
    rw [map_id_run, List.mem_toFinset, List.mem_toFinset, List.mem_eraseDups]
  rw [← hids, List.toFinset_card_of_nodup (nodup_run changes), List.length_map]
  rfl

theorem Indexed.InStep.get?_eq {s : Indexed} (h : s.InStep)
    (hnodup : (s.schema.declarations.map (·.id)).Nodup) (id : Name) :
    s.get? id = s.schema.get? id := by
  unfold Indexed.get? Schema.get?
  cases hl : s.index.lookup id with
  | none =>
    have hnot := h.lookup_eq_none_iff.1 hl
    refine (List.find?_eq_none.2 ?_).symm
    intro d hd hid
    exact hnot (List.mem_map.2 ⟨d, hd, eq_of_beq hid⟩)
  | some i =>
    have hi := (h id i).1 hl
    rw [List.getElem?_map, Option.map_eq_some_iff] at hi
    obtain ⟨d, hget, rfl⟩ := hi
    rw [Option.bind_some, hget]
    exact ((mem_iff_find? hnodup).1 (List.mem_of_getElem? hget)).symm

/-- After any changes a schema is a map that keeps the order of insertion, with an index as without
one. One more declaration gives back the one that had its name and changes no other. -/
theorem run_maps (changes : List Change) :
    (Indexed.run changes).schema = run changes ∧
      (run changes).Maps (added changes) (run changes).get? (run changes).declares ∧
      (run changes).Maps (added changes) (Indexed.run changes).get? (Indexed.run changes).declares ∧
      ∀ d, ((run changes).exchange d).2 = (added changes).findRev? (·.id == d.id) ∧
        (run changes).Adds d ((run changes).exchange d) ∧
        ((Indexed.run changes).exchange d).1.schema = ((run changes).exchange d).1 ∧
        ((Indexed.run changes).exchange d).2 = ((run changes).exchange d).2 := by
  obtain ⟨hstep, hschema⟩ := Indexed.inStep_run changes
  have hmaps : (run changes).Maps (added changes) (run changes).get? (run changes).declares :=
    { distinct := nodup_run changes
      order := map_id_run changes
      last := get?_run changes
      stands := fun _ => get?_id_run
      declares := fun _ => rfl
      size := size_run changes }
  have hget : (Indexed.run changes).get? = (run changes).get? := by
    funext id
    rw [← hschema]
    exact hstep.get?_eq (hschema ▸ nodup_run changes) id
  have hdeclares : (Indexed.run changes).declares = (run changes).declares := by
    funext id
    rw [← hschema]
    exact hstep.declares_eq id
  refine ⟨hschema, hmaps, ?_, ?_⟩
  · rw [hget, hdeclares]
    exact hmaps
  · intro d
    obtain ⟨-, hexchange, hback⟩ := hstep.exchange d
    rw [hschema] at hexchange hback
    refine ⟨?_, adds_exchange _ d, hexchange, hback⟩
    rw [snd_exchange, get?_run]

end TabularShapes.Schema
