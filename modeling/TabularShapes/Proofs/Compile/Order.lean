import TabularShapes.Proofs.Compile.Result
import TabularShapes.Proofs.Profile.Grouping
import Mathlib.Data.List.Find

/-! The order of shapes. What a shape becomes depends on which other shapes there are and not on
where they stand, so that tables which interleave the same rows have the same declarations. -/

namespace TabularShapes.Compiler

open Profile (Named SameByShape groupRows)

variable {c : Compiler} {table table' : ShapeTable} {shapes shapes' : List Profile.Shape}
  {shape : String} {st st' : Profile.Statement} {s : Profile.Shape} {v : Value} {ws : List Warning}
  {r : Schema × List Warning}

/-! ### Lines do not count -/

/-- A value depends on the answers of the table, and on the statement apart from its line. -/
theorem Gives.of_same (hl : ∀ iri, table'.lookup iri = table.lookup iri)
    (hst : st'.unlined = st.unlined) (h : c.Gives table shape st v ws) :
    c.Gives table' shape st' v ws := by
  obtain ⟨property, label, mandatory, repeatable, nodeKind, datatype, valueShape, line⟩ := st
  obtain ⟨_, _, _, _, _, _, _, line'⟩ := st'
  cases hst
  cases h with
  | datatype hd hv hk hn => exact .datatype hd hv hk hn
  | reference hd hv hk hi ht => exact .reference hd hv hk hi ((hl _).trans ht)
  | dropped hd hv hk hi ht hc => exact .dropped hd hv hk hi ((hl _).trans ht) hc
  | kind hd hv => exact .kind hd hv

theorem gives_unlined_iff : c.Gives table shape st.unlined v ws ↔ c.Gives table shape st v ws :=
  ⟨.of_same (fun _ => rfl) rfl, .of_same (fun _ => rfl) rfl⟩

theorem constraint_unlined_eq_ok_iff {k : Constraint × List Warning} :
    (c.constraint table shape st.unlined).result = .ok k ↔
      (c.constraint table shape st).result = .ok k := by
  obtain ⟨k, ws⟩ := k
  rw [constraint_eq_ok_iff, constraint_eq_ok_iff]
  simp only [gives_unlined_iff]
  rfl

theorem declares_unlined_iff {d : Declaration × List Warning} :
    c.Declares table s.unlined d ↔ c.Declares table s d := by
  unfold Declares
  simp only [Profile.Shape.unlined, List.forall₂_map_left_iff, constraint_unlined_eq_ok_iff]

theorem nameShapes_unlined_eq_ok_iff :
    c.nameShapes [] (shapes.map Profile.Shape.unlined) = .ok table ↔
      c.nameShapes [] shapes = .ok table := by
  rw [nameShapes_eq_ok_iff, nameShapes_eq_ok_iff, List.forall₂_map_left_iff]
  rfl

theorem compile_unlined_eq_ok_iff :
    (c.compile (shapes.map Profile.Shape.unlined)).result = .ok r ↔
      (c.compile shapes).result = .ok r := by
  obtain ⟨schema, ws⟩ := r
  simp only [compile_eq_ok_iff, nameShapes_unlined_eq_ok_iff, List.forall₂_map_left_iff,
    declares_unlined_iff]

/-! ### The order does not count -/

theorem Nameable.perm (h : c.Nameable shapes) (hp : shapes.Perm shapes') : c.Nameable shapes' := by
  refine ⟨fun s hs => h.named s (hp.mem_iff.2 hs), ?_⟩
  exact (hp.filterMap _).nodup_iff.1 h.distinct

/-- The table of the same shapes in another order gives the same answers. -/
theorem nameShapes_perm (hp : shapes.Perm shapes') (hn : c.nameShapes [] shapes = .ok table) :
    ∃ table', c.nameShapes [] shapes' = .ok table' ∧
      ∀ iri, table'.lookup iri = table.lookup iri := by
  have hname : c.Nameable shapes := exists_nameShapes_iff.1 ⟨table, hn⟩
  obtain ⟨table', hn'⟩ := exists_nameShapes_iff.2 (hname.perm hp)
  refine ⟨table', hn', ?_⟩
  intro iri
  apply Option.ext
  intro n
  rw [lookup_eq_some_iff hn', lookup_eq_some_iff hn]
  simp only [hp.mem_iff]

theorem Declares.of_lookup (hl : ∀ iri, table'.lookup iri = table.lookup iri)
    {d : Declaration × List Warning} (h : c.Declares table s d) : c.Declares table' s d := by
  obtain ⟨hid, hlabel, rs, hrs, hks, hws⟩ := h
  refine ⟨hid, hlabel, rs, ?_, hks, hws⟩
  refine hrs.imp ?_
  intro st k hk
  obtain ⟨p, v, hp, hg, hkv⟩ := constraint_eq_ok_iff.1 hk
  exact constraint_eq_ok_iff.2 ⟨p, v, hp, hg.of_same hl rfl, hkv⟩

structure Reordered (r r' : Schema × List Warning) : Prop where
  prefixes : r.1.prefixes = r'.1.prefixes
  declaration : ∀ id, r.1.get? id = r'.1.get? id
  declarations : r.1.declarations.Perm r'.1.declarations
  warnings : r.2.Perm r'.2

theorem get?_eq_of_perm {ds ds' : List Declaration} {m : PrefixMap} (hp : ds.Perm ds')
    (hd : (ds.map (·.id)).Nodup) (id : Name) :
    (Schema.mk m ds).get? id = (Schema.mk m ds').get? id := by
  apply List.find?_eq_find?_of_perm hp
  rintro d ⟨hd₁, hid⟩ d' ⟨hd₂, hid'⟩
  apply List.inj_on_of_nodup_map hd hd₁ hd₂
  rw [eq_of_beq hid, eq_of_beq hid']

theorem compile_perm (hp : shapes.Perm shapes') (h : (c.compile shapes).result = .ok r) :
    ∃ r', (c.compile shapes').result = .ok r' ∧ Reordered r r' := by
  obtain ⟨schema, ws⟩ := r
  obtain ⟨table, rs, hn, hr, rfl, rfl⟩ := compile_eq_ok_iff.1 h
  obtain ⟨table', hn', hl⟩ := nameShapes_perm hp hn
  have hr' : List.Forall₂ (c.Declares table') shapes rs := hr.imp fun s d hd => hd.of_lookup hl
  -- the declarations move with their shapes
  obtain ⟨rs', hrs', hperm⟩ := List.perm_comp_forall₂ hp.symm hr'
  have hnodup : ((rs.map (·.1)).map (·.id)).Nodup := by
    rw [map_id_of_declares (entries_of_nameShapes hn) hr]
    exact names_nodup hn
  refine ⟨(⟨c.prefixes, rs'.map (·.1)⟩, rs'.flatMap (·.2)),
    compile_eq_ok_iff.2 ⟨table', rs', hn', hrs', rfl, rfl⟩, rfl, ?_, ?_, ?_⟩
  · intro id
    exact get?_eq_of_perm (hperm.symm.map _) hnodup id
  · exact hperm.symm.map _
  · exact hperm.symm.flatMap_right _

/-- Tables that interleave the same rows compile alike: both fail, or both give every shape the same
declaration, with the same warnings. Only the order differs, and the lines do not count. -/
theorem compile_interleaved (c : Compiler) {rows rows' : List Profile.Row} (h : Named rows)
    (h' : Named rows') (hsame : SameByShape rows rows') :
    ∃ shapes shapes', groupRows rows = .ok shapes ∧ groupRows rows' = .ok shapes' ∧
      Agree (fun _ _ => True) Reordered (c.compile shapes).result (c.compile shapes').result := by
  obtain ⟨shapes, shapes', hs, hs', hp⟩ := Profile.groupRows_perm h h' hsame
  refine ⟨shapes, shapes', hs, hs', ?_⟩
  cases hr : (c.compile shapes).result with
  | ok r =>
    obtain ⟨r', hr', hsame⟩ := compile_perm hp (compile_unlined_eq_ok_iff.2 hr)
    rw [compile_unlined_eq_ok_iff.1 hr']
    exact .ok hsame
  | error e =>
    cases hr' : (c.compile shapes').result with
    | error e' => exact .error trivial
    | ok r' =>
      obtain ⟨r, hr₂, -⟩ := compile_perm hp.symm (compile_unlined_eq_ok_iff.2 hr')
      rw [compile_unlined_eq_ok_iff.1 hr₂] at hr
      cases hr

/-- Two shapes in turn, each with a reference to a shape that is not there. -/
def inTurn : List Profile.Row :=
  [{ shape := some "A", shapeLabel := some "a"
     statement := { property := "p", valueShape := some "B", line := 2 } },
    { shape := some "B", statement := { property := "q", valueShape := some "C", line := 3 } },
    { shape := some "A", statement := { property := "r", valueShape := some "D", line := 4 } }]

def oneByOne : List Profile.Row :=
  [{ shape := some "B", statement := { property := "q", valueShape := some "C", line := 2 } },
    { shape := some "A", shapeLabel := some "a"
      statement := { property := "p", valueShape := some "B", line := 3 } },
    { shape := some "A", statement := { property := "r", valueShape := some "D", line := 4 } }]

theorem compile_interleaved_of_oneByOne :
    Named inTurn ∧ Named oneByOne ∧ SameByShape inTurn oneByOne ∧
    ∃ shapes shapes' r r', groupRows inTurn = .ok shapes ∧ groupRows oneByOne = .ok shapes' ∧
      ({ default with lenient := true }.compile shapes).result = .ok r ∧
      ({ default with lenient := true }.compile shapes').result = .ok r' ∧ Reordered r r' ∧
      r.2 = [⟨"D", "A", "r"⟩, ⟨"C", "B", "q"⟩] := by
  have h : Named inTurn := by simp [Named, inTurn]
  have h' : Named oneByOne := by simp [Named, oneByOne]
  have hsame : SameByShape inTurn oneByOne := by
    intro id
    by_cases hA : id = "A"
    · subst hA
      decide
    · by_cases hB : id = "B"
      · subst hB
        decide
      · simp [Profile.rowsNaming, inTurn, oneByOne, Ne.symm hA, Ne.symm hB]
  obtain ⟨shapes, shapes', hs, hs', hagree⟩ :=
    compile_interleaved { default with lenient := true } h h' hsame
  have hws : (groupRows inTurn).toOption.map (fun shapes =>
      ({ default with lenient := true }.compile shapes).result.toOption.map
        (fun r : Schema × List Warning => r.2)) =
      some (some [⟨"D", "A", "r"⟩, ⟨"C", "B", "q"⟩]) := by decide +kernel
  simp only [hs, Except.toOption, Option.map_some, Option.some.injEq] at hws
  cases hr : ({ default with lenient := true }.compile shapes).result <;>
    cases hr' : ({ default with lenient := true }.compile shapes').result <;>
    rw [hr, hr'] at hagree
  · simp [hr] at hws
  · cases hagree
  · cases hagree
  · cases hagree with
    | ok hre =>
      exact ⟨h, h', hsame, shapes, shapes', _, _, hs, hs', hr, hr', hre, by simpa [hr] using hws⟩

end TabularShapes.Compiler
