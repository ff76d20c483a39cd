import TabularShapes.Proofs.Schema.Soundness
import Mathlib.Data.List.Lex
import Mathlib.Data.List.Induction

/-! What the check of a schema reports. A path leads to each name of a schema: the number of the
declaration, then that of the constraint, and then the predicate or the value. A schema is written in
the lexicographic order of these paths, where what stands above comes first. The check reports the
first name with an undeclared abbreviation, and the first dangling reference if there is no such
name. -/

namespace TabularShapes

/-! ### Lists along paths -/

/-- The list holds what stands at the end of some path, one item for each path, in the order of the
paths. -/
structure Lists {α : Type} (P : List ℕ → α → Prop) (l : List α) : Prop where
  unique : ∀ p a b, P p a → P p b → a = b
  listed : ∃ paths : List (List ℕ), paths.Pairwise (· < ·) ∧ (∀ p, p ∈ paths ↔ ∃ a, P p a) ∧
    List.Forall₂ P paths l

namespace Lists

variable {α β ε : Type} {P P' : List ℕ → α → Prop} {Q : α → ε → Prop} {l l' : List α} {e : ε}

theorem congr (h : Lists P l) (hP : ∀ p a, P' p a ↔ P p a) : Lists P' l := by
  obtain rfl : P' = P := funext fun p => funext fun a => propext (hP p a)
  exact h

theorem nil (h : ∀ p a, ¬P p a) : Lists P [] :=
  ⟨fun p a _ ha => absurd ha (h p a), [], .nil, fun p => by simp [h], .nil⟩

theorem option (p : List ℕ) (o : Option α) : Lists (fun q a => q = p ∧ o = some a) o.toList := by
  cases o with
  | none => exact nil (by simp)
  | some a =>
    refine ⟨?_, [p], List.pairwise_singleton _ p, ?_, .cons ⟨rfl, rfl⟩ .nil⟩
    · rintro q b b' ⟨-, hb⟩ ⟨-, hb'⟩
      exact Option.some.inj (hb.symm.trans hb')
    · intro q
      simp

theorem append (h : Lists P l) (h' : Lists P' l') (hlt : ∀ p a q b, P p a → P' q b → p < q) :
    Lists (fun p a => P p a ∨ P' p a) (l ++ l') := by
  obtain ⟨hunique, paths, hsorted, hmem, hall⟩ := h
  obtain ⟨hunique', paths', hsorted', hmem', hall'⟩ := h'
  refine ⟨?_, paths ++ paths', ?_, ?_, ?_⟩
  · rintro p a b (ha | ha) (hb | hb)
    · exact hunique p a b ha hb
    · exact absurd (hlt p a p b ha hb) (lt_irrefl p)
    · exact absurd (hlt p b p a hb ha) (lt_irrefl p)
    · exact hunique' p a b ha hb
  · refine List.pairwise_append.2 ⟨hsorted, hsorted', ?_⟩
    intro p hp q hq
    obtain ⟨a, ha⟩ := (hmem p).1 hp
    obtain ⟨b, hb⟩ := (hmem' q).1 hq
    exact hlt p a q b ha hb
  · intro p
    rw [List.mem_append, hmem, hmem', ← exists_or]
  · exact List.rel_append (hall.imp fun _ _ ha => .inl ha) (hall'.imp fun _ _ ha => .inr ha)

/-- The items as parts of something with the number `i`. -/
theorem under (h : Lists P l) (i : ℕ) : Lists (fun p a => ∃ q, p = i :: q ∧ P q a) l := by
  obtain ⟨hunique, paths, hsorted, hmem, hall⟩ := h
  refine ⟨?_, paths.map (i :: ·), ?_, ?_, ?_⟩
  · rintro _ a b ⟨q, rfl, ha⟩ ⟨q', hq, hb⟩
    cases hq
    exact hunique q a b ha hb
  · exact List.pairwise_map.2 (hsorted.imp fun h => List.cons_lt_cons_self.2 h)
  · intro p
    simp only [List.mem_map, hmem]
    grind
  · exact List.forall₂_map_left_iff.2 (hall.imp fun q _ ha => ⟨q, rfl, ha⟩)

/-- What stands in one of the parts, by the number of the part and the path in it. -/
def InPart (bs : List β) (S : β → List ℕ → α → Prop) (p : List ℕ) (a : α) : Prop :=
  ∃ i q b, p = i :: q ∧ bs[i]? = some b ∧ S b q a

theorem inPart_concat_iff {bs : List β} {b : β} {S : β → List ℕ → α → Prop} {p : List ℕ} {a : α} :
    InPart (bs ++ [b]) S p a ↔ InPart bs S p a ∨ ∃ q, p = bs.length :: q ∧ S b q a := by
  constructor
  · rintro ⟨i, q, c, rfl, hc, hs⟩
    rcases Nat.lt_trichotomy i bs.length with hi | rfl | hi
    · rw [List.getElem?_append_left hi] at hc
      exact .inl ⟨i, q, c, rfl, hc, hs⟩
    · rw [List.getElem?_concat_length] at hc
      cases hc
      exact .inr ⟨q, rfl, hs⟩
    · have hlen := (List.getElem?_eq_some_iff.1 hc).1
      rw [List.length_append, List.length_singleton] at hlen
      omega
  · rintro (⟨i, q, c, rfl, hc, hs⟩ | ⟨q, rfl, hs⟩)
    · have hi := (List.getElem?_eq_some_iff.1 hc).1
      exact ⟨i, q, c, rfl, by rw [List.getElem?_append_left hi, hc], hs⟩
    · exact ⟨bs.length, q, b, rfl, List.getElem?_concat_length, hs⟩

theorem flatMap {f : β → List α} {S : β → List ℕ → α → Prop} {bs : List β}
    (h : ∀ b ∈ bs, Lists (S b) (f b)) : Lists (InPart bs S) (bs.flatMap f) := by
  induction bs using List.reverseRecOn with
  | nil => exact nil (by simp [InPart])
  | append_singleton bs b ih =>
    have hfront := ih fun b hb => h b (List.mem_append_left _ hb)
    have hlast := (h b (by simp)).under bs.length
    rw [List.flatMap_append, List.flatMap_singleton]
    refine (hfront.append hlast ?_).congr fun p a => inPart_concat_iff
    rintro _ a _ b ⟨i, q, c, rfl, hc, -⟩ ⟨q', rfl, -⟩
    obtain ⟨hi, -⟩ := List.getElem?_eq_some_iff.1 hc
    exact List.cons_lt_cons_iff.2 (.inl hi)

theorem first_iff_of_sorted {paths : List (List ℕ)} (hunique : ∀ p a b, P p a → P p b → a = b)
    (hsorted : paths.Pairwise (· < ·)) (hall : List.Forall₂ P paths l) : First Q l e ↔
      ∃ p ∈ paths, ∃ a, P p a ∧ Q a e ∧ ∀ q ∈ paths, q < p → ∀ b, P q b → ∀ e', ¬Q b e' := by
  induction hall with
  | nil => simp [not_first_nil]
  | @cons p a paths l ha hall ih =>
    obtain ⟨hp, hsorted⟩ := List.pairwise_cons.1 hsorted
    rw [first_cons_iff, ih hsorted]
    constructor
    · rintro (hqa | ⟨hqa, q, hq, b, hb, hqb, hbefore⟩)
      · refine ⟨p, List.mem_cons_self, a, ha, hqa, ?_⟩
        intro q hq hqp
        rcases List.mem_cons.1 hq with rfl | hq
        · exact absurd hqp (lt_irrefl q)
        · exact absurd (hp q hq) (lt_asymm hqp)
      · refine ⟨q, List.mem_cons_of_mem p hq, b, hb, hqb, ?_⟩
        intro r hr hrq c hc e' hqc
        rcases List.mem_cons.1 hr with rfl | hr
        · obtain rfl := hunique r a c ha hc
          exact hqa ⟨e', hqc⟩
        · exact hbefore r hr hrq c hc e' hqc
    · rintro ⟨q, hq, b, hb, hqb, hbefore⟩
      rcases List.mem_cons.1 hq with rfl | hq
      · obtain rfl := hunique q a b ha hb
        exact .inl hqb
      · refine .inr ⟨?_, q, hq, b, hb, hqb, fun r hr => hbefore r (List.mem_cons_of_mem p hr)⟩
        rintro ⟨e', hqa⟩
        exact hbefore p List.mem_cons_self (hp q hq) a ha e' hqa

theorem first_iff (h : Lists P l) : First Q l e ↔
    ∃ p a, P p a ∧ Q a e ∧ ∀ q b, q < p → P q b → ∀ e', ¬Q b e' := by
  obtain ⟨hunique, paths, hsorted, hmem, hall⟩ := h
  rw [first_iff_of_sorted hunique hsorted hall]
  constructor
  · rintro ⟨p, -, a, ha, hqa, hbefore⟩
    exact ⟨p, a, ha, hqa, fun q b hq hb => hbefore q ((hmem q).2 ⟨b, hb⟩) hq b hb⟩
  · rintro ⟨p, a, ha, hqa, hbefore⟩
    exact ⟨p, (hmem p).2 ⟨a, ha⟩, a, ha, hqa, fun q _ hq b hb => hbefore q b hq hb⟩

theorem mem_iff (h : Lists P l) {a : α} : a ∈ l ↔ ∃ p, P p a := by
  obtain ⟨hunique, paths, -, hmem, hall⟩ := h
  constructor
  · intro ha
    obtain ⟨p, -, hp⟩ := exists_of_mem_right hall ha
    exact ⟨p, hp⟩
  · rintro ⟨p, hp⟩
    obtain ⟨b, hb, hpb⟩ := exists_of_mem_left hall ((hmem p).2 ⟨a, hp⟩)
    rwa [hunique p a b hp hpb]

end Lists

/-! ### Names and references of a schema -/

namespace Schema

variable {s : Schema} {n : Name} {space : String} {x : Dangling} {p : List ℕ}

/-- The name stands at the end of the path: `[i]` leads to the name of a shape, `[i, j, 0]` to the
predicate of one of its constraints and `[i, j, 1]` to the datatype or the shape that this refers
to. -/
inductive Stands (s : Schema) : List ℕ → Name → Prop
  | id {i : ℕ} {d : Declaration} (hd : s.declarations[i]? = some d) : Stands s [i] d.id
  | predicate {i j : ℕ} {d : Declaration} {k : Constraint} (hd : s.declarations[i]? = some d)
      (hk : d.constraints[j]? = some k) : Stands s [i, j, 0] k.predicate
  | datatype {i j : ℕ} {d : Declaration} {k : Constraint} {n : Name}
      (hd : s.declarations[i]? = some d) (hk : d.constraints[j]? = some k)
      (hn : k.value = .datatype n) : Stands s [i, j, 1] n
  | reference {i j : ℕ} {d : Declaration} {k : Constraint} {n : Name}
      (hd : s.declarations[i]? = some d) (hk : d.constraints[j]? = some k)
      (hn : k.value = .reference n) : Stands s [i, j, 1] n

inductive Dangles (s : Schema) : List ℕ → Dangling → Prop
  | mk {i j : ℕ} {d : Declaration} {k : Constraint} {n : Name}
      (hd : s.declarations[i]? = some d) (hk : d.constraints[j]? = some k)
      (hn : k.value = .reference n) (ht : ∀ t ∈ s.declarations, t.id ≠ n) :
      Dangles s [i, j] ⟨d.id, k.predicate, n⟩

def InConstraint (k : Constraint) (p : List ℕ) (n : Name) : Prop :=
  p = [0] ∧ some k.predicate = some n ∨ p = [1] ∧ k.value.name? = some n

def InDeclaration (d : Declaration) (p : List ℕ) (n : Name) : Prop :=
  p = [] ∧ some d.id = some n ∨ Lists.InPart d.constraints InConstraint p n

theorem lists_constraint (k : Constraint) :
    Lists (InConstraint k) (k.predicate :: k.value.name?.toList) := by
  refine (Lists.option [0] (some k.predicate)).append (Lists.option [1] k.value.name?) ?_
  rintro _ a _ b ⟨rfl, -⟩ ⟨rfl, -⟩
  decide

theorem lists_declaration (d : Declaration) : Lists (InDeclaration d) (d.id :: d.names) := by
  have hnames : Lists (Lists.InPart d.constraints InConstraint) d.names :=
    .flatMap fun k _ => lists_constraint k
  refine (Lists.option [] (some d.id)).append hnames ?_
  rintro _ a _ b ⟨rfl, -⟩ ⟨i, q, k, rfl, -, -⟩
  exact List.nil_lt_cons i q

theorem stands_iff : s.Stands p n ↔ Lists.InPart s.declarations InDeclaration p n := by
  constructor
  · rintro (hd | ⟨hd, hk⟩ | ⟨hd, hk, hn⟩ | ⟨hd, hk, hn⟩)
    · exact ⟨_, _, _, rfl, hd, .inl ⟨rfl, rfl⟩⟩
    · exact ⟨_, _, _, rfl, hd, .inr ⟨_, _, _, rfl, hk, .inl ⟨rfl, rfl⟩⟩⟩
    · have hname := Value.name?_eq_some_iff.2 (.inl hn)
      exact ⟨_, _, _, rfl, hd, .inr ⟨_, _, _, rfl, hk, .inr ⟨rfl, hname⟩⟩⟩
    · have hname := Value.name?_eq_some_iff.2 (.inr hn)
      exact ⟨_, _, _, rfl, hd, .inr ⟨_, _, _, rfl, hk, .inr ⟨rfl, hname⟩⟩⟩
  · rintro ⟨i, q, d, rfl, hd, ⟨rfl, hn⟩ | ⟨j, r, k, rfl, hk, ⟨rfl, hn⟩ | ⟨rfl, hn⟩⟩⟩
    · cases hn
      exact .id hd
    · cases hn
      exact .predicate hd hk
    · rcases Value.name?_eq_some_iff.1 hn with hn | hn
      · exact .datatype hd hk hn
      · exact .reference hd hk hn

theorem lists_names (s : Schema) : Lists s.Stands s.names :=
  (Lists.flatMap fun d _ => lists_declaration d).congr fun _ _ => stands_iff

def dangling? (s : Schema) (d : Declaration) (k : Constraint) : Option Dangling :=
  (k.value.reference?.filter fun r => !s.declares r).map fun r => ⟨d.id, k.predicate, r⟩

theorem declares_eq_false_iff : s.declares n = false ↔ ∀ t ∈ s.declarations, t.id ≠ n := by
  rw [← Bool.not_eq_true, declares_iff]
  simp

theorem dangling?_eq_some_iff {d : Declaration} {k : Constraint} :
    s.dangling? d k = some x ↔ ∃ n, k.value = .reference n ∧ (∀ t ∈ s.declarations, t.id ≠ n) ∧
      x = ⟨d.id, k.predicate, n⟩ := by
  simp only [dangling?, Option.map_eq_some_iff, Option.filter_eq_some_iff, Bool.not_eq_true',
    Value.reference?_eq_some_iff, declares_eq_false_iff, and_assoc, eq_comm (b := x)]

theorem dangling_eq (s : Schema) : s.dangling = s.declarations.flatMap fun d =>
    d.constraints.flatMap fun k => (s.dangling? d k).toList := by
  have hconstraint : ∀ (d : Declaration) (ks : List Constraint),
      (((ks.filterMap fun k => k.value.reference?.map (k.predicate, ·)).filter
        fun p => !s.declares p.2).map fun p => (⟨d.id, p.1, p.2⟩ : Dangling)) =
      ks.flatMap fun k => (s.dangling? d k).toList := by
    intro d ks
    induction ks with
    | nil => rfl
    | cons k ks ih =>
      rw [List.flatMap_cons, ← ih, dangling?, List.filterMap_cons]
      cases hr : k.value.reference? with
      | none => rfl
      | some r => cases hs : s.declares r <;> simp [hs, Option.filter_some]
  rw [dangling]
  exact congrArg s.declarations.flatMap (funext fun d => hconstraint d d.constraints)

theorem dangles_iff : s.Dangles p x ↔ Lists.InPart s.declarations (fun d =>
    Lists.InPart d.constraints fun k q x => q = [] ∧ s.dangling? d k = some x) p x := by
  constructor
  · rintro @⟨i, j, d, k, n, hd, hk, hn, ht⟩
    have hx : s.dangling? d k = some ⟨d.id, k.predicate, n⟩ :=
      dangling?_eq_some_iff.2 ⟨n, hn, ht, rfl⟩
    exact ⟨i, [j], d, rfl, hd, j, [], k, rfl, hk, rfl, hx⟩
  · rintro ⟨i, _, d, rfl, hd, j, _, k, rfl, hk, rfl, hx⟩
    obtain ⟨n, hn, ht, rfl⟩ := dangling?_eq_some_iff.1 hx
    exact .mk hd hk hn ht

theorem lists_dangling (s : Schema) : Lists s.Dangles s.dangling := by
  rw [dangling_eq]
  have hconstraint : ∀ d ∈ s.declarations, Lists (Lists.InPart d.constraints
      fun k q x => q = [] ∧ s.dangling? d k = some x)
      (d.constraints.flatMap fun k => (s.dangling? d k).toList) :=
    fun d _ => .flatMap fun k _ => .option [] _
  exact (Lists.flatMap hconstraint).congr fun _ _ => dangles_iff

/-! ### The check -/

def Lacks (s : Schema) (n : Name) (space : String) : Prop :=
  ∃ ending, n.parts? = some (space, ending) ∧ s.prefixes.get? space = none

theorem undeclared?_eq_some_iff : n.undeclared? s.prefixes = some space ↔ s.Lacks n space := by
  cases n with
  | full iri => simp [Name.undeclared?, Lacks, Name.parts?]
  | short first ending =>
    cases hd : s.prefixes.declares first.text with
    | true =>
      have hget : s.prefixes.get? first.text ≠ none := Option.isSome_iff_ne_none.1 hd
      rw [Name.undeclared?, hd, if_pos rfl]
      refine iff_of_false (by simp) ?_
      rintro ⟨_, hparts, hnone⟩
      cases hparts
      exact hget hnone
    | false =>
      have hget : s.prefixes.get? first.text = none := by simpa [PrefixMap.declares] using hd
      rw [Name.undeclared?, hd, if_neg Bool.false_ne_true]
      constructor
      · intro h
        cases h
        exact ⟨ending.text, rfl, hget⟩
      · rintro ⟨_, hparts, -⟩
        cases hparts
        rfl

def lacking? (s : Schema) : Option (Name × String) :=
  s.names.findSome? fun n => (n.undeclared? s.prefixes).map (n, ·)

theorem lacking?_eq_some_iff : s.lacking? = some (n, space) ↔ ∃ p, s.Stands p n ∧
    s.Lacks n space ∧ ∀ q m, q < p → s.Stands q m → ∀ other, ¬s.Lacks m other := by
  have hlacks : ∀ (m : Name) (e : Name × String),
      (m.undeclared? s.prefixes).map (m, ·) = some e ↔ m = e.1 ∧ s.Lacks m e.2 := by
    intro m e
    rw [Option.map_eq_some_iff, ← undeclared?_eq_some_iff]
    grind
  rw [lacking?, findSome?_eq_some_iff_first, (lists_names s).first_iff]
  simp only [hlacks]
  constructor
  · rintro ⟨p, m, hm, ⟨rfl, hlack⟩, hbefore⟩
    exact ⟨p, hm, hlack, fun q m' hq hm' other ho => hbefore q m' hq hm' (m', other) ⟨rfl, ho⟩⟩
  · rintro ⟨p, hn, hlack, hbefore⟩
    exact ⟨p, n, hn, ⟨rfl, hlack⟩, fun q m hq hm e he => hbefore q m hq hm e.2 he.2⟩

theorem lacking?_eq_none_iff :
    s.lacking? = none ↔ ∀ p n space, s.Stands p n → ¬s.Lacks n space := by
  have hnames : s.lacking? = none ↔ ∀ n ∈ s.names, n.undeclared? s.prefixes = none := by
    simp [lacking?]
  simp only [hnames, (lists_names s).mem_iff, ← undeclared?_eq_some_iff,
    Option.eq_none_iff_forall_ne_some]
  grind

theorem head?_eq_some_iff_first {α : Type} {l : List α} {a : α} :
    l.head? = some a ↔ First (fun b e => b = e) l a := by
  cases l with
  | nil => simp [not_first_nil]
  | cons b l => simp [first_cons_iff]

theorem head?_dangling_eq_some_iff :
    s.dangling.head? = some x ↔ ∃ p, s.Dangles p x ∧ ∀ q y, q < p → ¬s.Dangles q y := by
  rw [head?_eq_some_iff_first, (lists_dangling s).first_iff]
  grind

theorem head?_dangling_eq_none_iff : s.dangling.head? = none ↔ ∀ p x, ¬s.Dangles p x := by
  rw [List.head?_eq_none_iff, List.eq_nil_iff_forall_not_mem]
  simp only [(lists_dangling s).mem_iff]
  grind

/-- A name with an undeclared abbreviation is reported before a reference that dangles. -/
def verdict : Option (Name × String) → Option Dangling → Except SchemaError Unit
  | some (n, space), _ => .error (.undeclaredPrefix n space)
  | none, some x => .error (.undefinedReference x)
  | none, none => .ok ()

theorem check_eq (s : Schema) : s.check = verdict s.lacking? s.dangling.head? := by
  rw [check, lacking?]
  split
  · next h => rw [h, verdict]
  · next h =>
    rw [h]
    cases s.dangling <;> rfl

/-- What is reported of a schema. It passes if all abbreviations in it are declared and no reference
dangles. It fails else with the first name of an undeclared abbreviation, and only without any such
name with the first dangling reference. All dangling references are listed, in order. -/
structure Reported (s : Schema) (result : Except SchemaError Unit) (dangling : List Dangling) :
    Prop where
  passes : result = .ok () ↔
    (∀ p n space, s.Stands p n → ¬s.Lacks n space) ∧ ∀ p x, ¬s.Dangles p x
  undeclared : ∀ n space, result = .error (.undeclaredPrefix n space) ↔ ∃ p, s.Stands p n ∧
    s.Lacks n space ∧ ∀ q m, q < p → s.Stands q m → ∀ other, ¬s.Lacks m other
  undefined : ∀ x, result = .error (.undefinedReference x) ↔
    (∀ p n space, s.Stands p n → ¬s.Lacks n space) ∧
      ∃ p, s.Dangles p x ∧ ∀ q y, q < p → ¬s.Dangles q y
  dangling : Lists s.Dangles dangling

theorem reported_check (s : Schema) : s.Reported s.check s.dangling := by
  refine ⟨?_, fun n space => ?_, fun x => ?_, lists_dangling s⟩
  all_goals
    simp only [← lacking?_eq_some_iff, ← lacking?_eq_none_iff, ← head?_dangling_eq_some_iff,
      ← head?_dangling_eq_none_iff, check_eq]
  · cases s.lacking? <;> cases s.dangling.head? <;> simp [verdict]
  · cases s.lacking? <;> cases s.dangling.head? <;> simp [verdict, Prod.ext_iff]
  · cases s.lacking? <;> cases s.dangling.head? <;> simp [verdict]

end Schema

end TabularShapes
