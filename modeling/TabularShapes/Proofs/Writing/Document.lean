import TabularShapes.Schema.Check
import TabularShapes.Writing.Document
import Mathlib.Data.List.Forall2

/-! What the document of a schema depends on: the IRIs that its names stand for, and nothing else of
their spelling and of the namespaces. Lists of parts that have the same JSON one by one have the same
JSON together. -/

namespace TabularShapes.Document

variable {m m' : PrefixMap}

theorem map_eq_of_forall₂ {α β : Type} {f f' : α → β} {as as' : List α}
    (h : List.Forall₂ (fun a a' => f a = f' a') as as') : as.map f = as'.map f' := by
  induction h with
  | nil => rfl
  | cons h _ ih => rw [List.map_cons, List.map_cons, h, ih]

theorem value_reference {n n' : Name} (h : n.identity m = n'.identity m') :
    value m (.reference n) = value m' (.reference n') := by
  simp [value, h]

theorem value_congr {v : Value} (h : ∀ n, v.name? = some n → n.identity m = n.identity m') :
    value m v = value m' v := by
  cases v with
  | datatype n => simp [value, h n rfl]
  | reference n => exact value_reference (h n rfl)
  | nodeKind k => rfl
  | any => rfl

theorem constraint_congr {k k' : Constraint} (hp : k.predicate.identity m = k'.predicate.identity m')
    (hv : value m k.value = value m' k'.value) (hc : k.cardinality = k'.cardinality) :
    constraint m k = constraint m' k' := by
  simp [constraint, hp, hv, hc]

theorem expression_congr {ks ks' : List Constraint}
    (h : List.Forall₂ (fun k k' => constraint m k = constraint m' k') ks ks') :
    expression m ks = expression m' ks' := by
  have hmap := map_eq_of_forall₂ h
  cases h with
  | nil => rfl
  | cons hk hks =>
    cases hks with
    | nil => simp [expression, hk]
    | cons => simp only [expression, hmap]

theorem declaration_congr {d d' : Declaration} (hid : d.id.identity m = d'.id.identity m')
    (h : List.Forall₂ (fun k k' => constraint m k = constraint m' k') d.constraints d'.constraints) :
    declaration m d = declaration m' d' := by
  simp [declaration, hid, expression_congr h]

theorem document_congr {ds ds' : List Declaration}
    (h : List.Forall₂ (fun d d' => declaration m d = declaration m' d') ds ds') :
    Schema.document ⟨m, ds⟩ = Schema.document ⟨m', ds'⟩ := by
  have hmap := map_eq_of_forall₂ h
  cases h with
  | nil => rfl
  | cons => simp only [Schema.document, shapes, hmap]

/-- Other namespaces under which all names stand for the same IRIs do not change the document. -/
theorem document_of_identity {ds : List Declaration}
    (h : ∀ n ∈ Schema.names ⟨m, ds⟩, n.identity m = n.identity m') :
    Schema.document ⟨m, ds⟩ = Schema.document ⟨m', ds⟩ := by
  apply document_congr
  rw [List.forall₂_same]
  intro d hd
  have hnames : ∀ n ∈ d.id :: d.names, n.identity m = n.identity m' :=
    fun n hn => h n (List.mem_flatMap.2 ⟨d, hd, hn⟩)
  apply declaration_congr (hnames _ List.mem_cons_self)
  rw [List.forall₂_same]
  intro k hk
  have hk : ∀ n ∈ k.predicate :: k.value.name?.toList, n.identity m = n.identity m' :=
    fun n hn => hnames n (List.mem_cons_of_mem _ (List.mem_flatMap.2 ⟨k, hk, hn⟩))
  refine constraint_congr (hk _ List.mem_cons_self) (value_congr ?_) rfl
  intro n hn
  exact hk n (List.mem_cons_of_mem _ (Option.mem_toList.2 hn))

end TabularShapes.Document
