import TabularShapes.Proofs.Json.Printing
import TabularShapes.Writing.Write

/-! What the JSON text of a schema denotes: the schema with its names as IRIs, without labels. Two
texts denote the same value if and only if their schemas agree in this. -/

namespace TabularShapes

open Json (Datum)

/-! ### Outlines -/

inductive Demand
  | datatype (iri : String)
  | shape (iri : String)
  | nodeKind (kind : NodeKind)
  | any
deriving DecidableEq

def Value.demand (m : PrefixMap) : Value → Demand
  | .datatype n => .datatype (n.identity m)
  | .reference n => .shape (n.identity m)
  | .nodeKind k => .nodeKind k
  | .any => .any

structure ConstraintOutline where
  predicate : String
  demand : Demand
  min : Nat
  max? : Option Nat
deriving DecidableEq

structure ShapeOutline where
  id : String
  constraints : List ConstraintOutline
deriving DecidableEq

def Constraint.outline (m : PrefixMap) (c : Constraint) : ConstraintOutline :=
  ⟨c.predicate.identity m, c.value.demand m, c.cardinality.min, c.cardinality.max?⟩

def Declaration.outline (m : PrefixMap) (d : Declaration) : ShapeOutline :=
  ⟨d.id.identity m, d.constraints.map (Constraint.outline m)⟩

/-- The shapes of the schema in order, with names as IRIs. -/
def Schema.outline (s : Schema) : List ShapeOutline :=
  s.declarations.map (Declaration.outline s.prefixes)

/-! ### Their values -/

namespace Json.Datum

def record (members : List (String × Option Datum)) : Datum :=
  .object fun key => (members.lookup key).join

def get? (key : String) : Datum → Option Datum
  | .object member? => member? key
  | _ => none

end Json.Datum

def Demand.datum? : Demand → Option Datum
  | .datatype iri =>
    some (.record [("type", some (.text "NodeConstraint")), ("datatype", some (.text iri))])
  | .nodeKind kind =>
    some (.record [("type", some (.text "NodeConstraint")), ("nodeKind", some (.text kind.jsonName))])
  | .shape iri => some (.text iri)
  | .any => none

namespace ConstraintOutline

/-- Bounds that say exactly one are left out. -/
def isOnce (c : ConstraintOutline) : Bool := c.min == 1 && c.max? == some 1

def datum (c : ConstraintOutline) : Datum :=
  .record [("type", some (.text "TripleConstraint")), ("predicate", some (.text c.predicate)),
    ("valueExpr", c.demand.datum?),
    ("min", if c.isOnce then none else some (.number c.min)),
    ("max", if c.isOnce then none else some (.number (c.max?.elim (-1) (↑·))))]

/-- No expression for no constraint, a constraint by itself, several as one conjunction. -/
def datumOfAll? : List ConstraintOutline → Option Datum
  | [] => none
  | [c] => some c.datum
  | cs =>
    some (.record [("type", some (.text "EachOf")), ("expressions", some (.array (cs.map datum)))])

end ConstraintOutline

def ShapeOutline.datum (s : ShapeOutline) : Datum :=
  .record [("type", some (.text "ShapeDecl")), ("id", some (.text s.id)),
    ("shapeExpr", some (.record [("type", some (.text "Shape")),
      ("expression", ConstraintOutline.datumOfAll? s.constraints)]))]

/-- The value that a document with these shapes denotes. -/
def ShapeOutline.datumOfAll (shapes : List ShapeOutline) : Datum :=
  .record [("@context", some (.text "http://www.w3.org/ns/shex.jsonld")),
    ("type", some (.text "Schema")),
    ("shapes", if shapes = [] then none else some (.array (shapes.map ShapeOutline.datum)))]

/-! ### The document denotes the outline -/

namespace Json

theorem lookup_present {members : List (String × Option Datum)} (key : String)
    (h : (members.map (·.1)).Nodup) :
    (members.filterMap fun p => p.2.map (p.1, ·)).reverse.lookup key =
      (members.lookup key).join := by
  induction members with
  | nil => rfl
  | cons p members ih =>
    obtain ⟨k, o⟩ := p
    rw [List.map_cons, List.nodup_cons] at h
    have ih := ih h.2
    by_cases hk : key = k
    · subst hk
      have hnone : members.lookup key = none := by
        refine List.lookup_eq_none_iff.2 fun p hp => bne_iff_ne.2 ?_
        rintro rfl
        exact h.1 (List.mem_map.2 ⟨p, hp, rfl⟩)
      rw [hnone] at ih
      cases o <;> simp [List.lookup_append, ih]
    · cases o <;> simp [List.lookup_append, List.lookup_cons, ih, beq_false_of_ne hk]

theorem ofMembers_eq_record {members : List (String × Datum)}
    {members' : List (String × Option Datum)} (hnodup : (members'.map (·.1)).Nodup)
    (h : members = members'.filterMap fun p => p.2.map (p.1, ·)) :
    Datum.ofMembers members = Datum.record members' := by
  rw [Datum.ofMembers, Datum.record, h]
  exact congrArg Datum.object (funext fun key => lookup_present key hnodup)

theorem memberData_append (ms ms' : List (String × Json)) :
    memberData (ms ++ ms') = memberData ms ++ memberData ms' := by
  induction ms with
  | nil => rfl
  | cons m ms ih => simp [memberData, ih]

theorem itemData_map {α : Type} (f : α → Json) (as : List α) :
    itemData (as.map f) = as.map fun a => (f a).datum := by
  induction as with
  | nil => rfl
  | cons a as ih => rw [List.map_cons, itemData, ih, List.map_cons]

end Json

namespace Document

variable (m : PrefixMap)

theorem datum_typed (type : String) (members : List (String × Json)) :
    (typed type members).datum = .ofMembers (("type", .text type) :: Json.memberData members) :=
  rfl

theorem datum_typed_text {key : String} (type text : String) (h : "type" ≠ key) :
    (typed type [(key, .text text)]).datum =
      .record [("type", some (.text type)), (key, some (.text text))] :=
  Json.ofMembers_eq_record (by simpa using h) rfl

theorem memberData_value (v : Value) :
    Json.memberData (value m v) = ((v.demand m).datum?.map ("valueExpr", ·)).toList := by
  cases v with
  | datatype n =>
    rw [value, Json.memberData, datum_typed_text _ _ (by decide)]
    rfl
  | nodeKind k =>
    rw [value, Json.memberData, datum_typed_text _ _ (by decide)]
    rfl
  | reference n => rfl
  | any => rfl

theorem memberData_cardinality (c : Constraint) :
    Json.memberData (cardinality c.cardinality) =
      if (c.outline m).isOnce then []
      else [("min", .number (c.outline m).min),
        ("max", .number ((c.outline m).max?.elim (-1) (↑·)))] := by
  cases h : c.cardinality <;>
    simp [cardinality, Json.memberData, Json.datum, Constraint.outline, ConstraintOutline.isOnce, h,
      Cardinality.min, Cardinality.max?]

theorem datum_constraint (c : Constraint) : (constraint m c).datum = (c.outline m).datum := by
  have hmembers : Json.memberData (("predicate", .text (c.predicate.identity m)) ::
      value m c.value ++ cardinality c.cardinality) =
      ("predicate", .text (c.predicate.identity m)) :: (Json.memberData (value m c.value) ++
        Json.memberData (cardinality c.cardinality)) := by
    rw [List.cons_append, Json.memberData, Json.memberData_append]
    rfl
  rw [constraint, datum_typed, hmembers, memberData_value, memberData_cardinality]
  refine Json.ofMembers_eq_record (by simp) ?_
  have hdemand : (c.outline m).demand = c.value.demand m := rfl
  have hpredicate : (c.outline m).predicate = c.predicate.identity m := rfl
  rw [hdemand, hpredicate]
  cases (c.value.demand m).datum? <;> cases (c.outline m).isOnce <;> rfl

theorem datum_expression (cs : List Constraint) :
    Json.memberData (expression m cs) =
      ((ConstraintOutline.datumOfAll? (cs.map (Constraint.outline m))).map
        ("expression", ·)).toList := by
  match cs with
  | [] => rfl
  | [c] =>
    rw [expression, Json.memberData, datum_constraint]
    rfl
  | c :: c' :: cs =>
    have hitems : Json.itemData ((c :: c' :: cs).map (constraint m)) =
        ((c :: c' :: cs).map (Constraint.outline m)).map ConstraintOutline.datum := by
      rw [Json.itemData_map, List.map_map]
      exact List.map_congr_left fun c _ => datum_constraint m c
    have h : (typed "EachOf" [("expressions", .array ((c :: c' :: cs).map (constraint m)))]).datum =
        .record [("type", some (.text "EachOf")), ("expressions",
          some (.array (((c :: c' :: cs).map (Constraint.outline m)).map
            ConstraintOutline.datum)))] := by
      refine Json.ofMembers_eq_record (by simp) ?_
      rw [← hitems]
      rfl
    exact congrArg (fun d => [("expression", d)]) h

theorem datum_declaration (d : Declaration) :
    (declaration m d).datum = (d.outline m).datum := by
  have h : (typed "Shape" (expression m d.constraints)).datum =
      .record [("type", some (.text "Shape")),
        ("expression", ConstraintOutline.datumOfAll? (d.outline m).constraints)] := by
    rw [datum_typed, datum_expression]
    refine Json.ofMembers_eq_record (by simp) ?_
    have hconstraints : (d.outline m).constraints = d.constraints.map (Constraint.outline m) := rfl
    rw [hconstraints]
    cases ConstraintOutline.datumOfAll? (d.constraints.map (Constraint.outline m)) <;> rfl
  refine Json.ofMembers_eq_record (by simp) ?_
  rw [← h]
  rfl

theorem datum_document (s : Schema) : s.document.datum = ShapeOutline.datumOfAll s.outline := by
  have hitems : Json.itemData (s.declarations.map (declaration s.prefixes)) =
      s.outline.map ShapeOutline.datum := by
    rw [Json.itemData_map, Schema.outline, List.map_map]
    exact List.map_congr_left fun d _ => datum_declaration s.prefixes d
  have hshapes : Json.memberData (shapes s.prefixes s.declarations) =
      if s.outline = [] then [] else [("shapes", .array (s.outline.map ShapeOutline.datum))] := by
    rw [← hitems, Schema.outline]
    cases s.declarations <;> rfl
  refine Json.ofMembers_eq_record (by simp) ?_
  show ("@context", .text context) :: ("type", .text "Schema") ::
    Json.memberData (shapes s.prefixes s.declarations) = _
  rw [hshapes]
  by_cases h : s.outline = []
  · simp [h, context]
  · simp [h, context]

end Document

/-! ### Outlines from their values

An outline is found again in its value, so that no two outlines have the same value. What stands in
other values does not matter here. -/

namespace Json.Datum

@[simp]
theorem get?_record (key : String) (members : List (String × Option Datum)) :
    (record members).get? key = (members.lookup key).join := rfl

def textOf : Option Datum → String
  | some (.text s) => s
  | _ => ""

end Json.Datum

def Demand.ofDatum (d : Option Datum) : Demand :=
  match d with
  | none => .any
  | some (.text iri) => .shape iri
  | some d =>
    match d.get? "datatype", d.get? "nodeKind" with
    | some (.text iri), _ => .datatype iri
    | _, some (.text name) =>
      ((NodeKind.all.find? (·.jsonName == name)).map .nodeKind).getD .any
    | _, _ => .any

namespace ConstraintOutline

def ofDatum (d : Datum) : ConstraintOutline where
  predicate := Datum.textOf (d.get? "predicate")
  demand := .ofDatum (d.get? "valueExpr")
  min := match d.get? "min" with
    | some (.number q) => q.num.toNat
    | _ => 1
  max? := match d.get? "max" with
    | some (.number q) => if q < 0 then none else some q.num.toNat
    | _ => some 1

def allOfDatum : Option Datum → List ConstraintOutline
  | none => []
  | some d =>
    match d.get? "expressions" with
    | some (.array ds) => ds.map ofDatum
    | _ => [ofDatum d]

end ConstraintOutline

namespace ShapeOutline

def ofDatum (d : Datum) : ShapeOutline where
  id := Datum.textOf (d.get? "id")
  constraints := ConstraintOutline.allOfDatum ((d.get? "shapeExpr").bind (Datum.get? "expression"))

def allOfDatum (d : Datum) : List ShapeOutline :=
  match d.get? "shapes" with
  | some (.array ds) => ds.map ofDatum
  | _ => []

end ShapeOutline

theorem Demand.ofDatum_datum? (x : Demand) : ofDatum x.datum? = x := by
  cases x with
  | nodeKind k => cases k <;> rfl
  | datatype | shape | any => rfl

namespace ConstraintOutline

theorem ofDatum_datum (c : ConstraintOutline) : ofDatum c.datum = c := by
  obtain ⟨predicate, demand, min, max?⟩ := c
  have hdemand := demand.ofDatum_datum?
  cases h : isOnce ⟨predicate, demand, min, max?⟩ with
  | true =>
    obtain ⟨rfl, rfl⟩ : min = 1 ∧ max? = some 1 := by simpa [isOnce] using h
    simp [ofDatum, datum, h, hdemand, List.lookup_cons, Datum.textOf]
  | false =>
    cases max? <;> simp [ofDatum, datum, h, hdemand, List.lookup_cons, Datum.textOf]

theorem allOfDatum_datumOfAll? (cs : List ConstraintOutline) : allOfDatum (datumOfAll? cs) = cs := by
  match cs with
  | [] => rfl
  | [c] => exact congrArg ([·]) (ofDatum_datum c)
  | c :: c' :: cs =>
    show ((c :: c' :: cs).map datum).map ofDatum = _
    rw [List.map_map]
    exact List.map_id'' ofDatum_datum _

end ConstraintOutline

namespace ShapeOutline

theorem ofDatum_datum (s : ShapeOutline) : ofDatum s.datum = s := by
  have hconstraints : (ofDatum s.datum).constraints = s.constraints :=
    ConstraintOutline.allOfDatum_datumOfAll? s.constraints
  exact congrArg (ShapeOutline.mk s.id) hconstraints

theorem allOfDatum_datumOfAll (shapes : List ShapeOutline) :
    allOfDatum (datumOfAll shapes) = shapes := by
  cases shapes with
  | nil => rfl
  | cons s shapes =>
    show ((s :: shapes).map datum).map ofDatum = _
    rw [List.map_map]
    exact List.map_id'' ofDatum_datum _

end ShapeOutline

theorem Schema.read_write (s : Schema) (layout : Layout) :
    Json.read (s.write { layout with format := .shexJ }) =
      some (ShapeOutline.datumOfAll s.outline) := by
  show Json.read (s.document.print layout.indent) = _
  rw [Json.read_print, Document.datum_document]

/-- The JSON text of a schema denotes its outline, and texts denote the same value if and only if
their schemas have the same outline, however wide the indentation. -/
theorem Schema.write_denotes (s s' : Schema) (layout layout' : Layout) :
    Json.read (s.write { layout with format := .shexJ }) = some (ShapeOutline.datumOfAll s.outline) ∧
      (Json.read (s.write { layout with format := .shexJ }) =
        Json.read (s'.write { layout' with format := .shexJ }) ↔ s.outline = s'.outline) := by
  refine ⟨s.read_write layout, ?_⟩
  rw [s.read_write layout, s'.read_write layout']
  constructor
  · intro h
    rw [← ShapeOutline.allOfDatum_datumOfAll s.outline, Option.some.inj h,
      ShapeOutline.allOfDatum_datumOfAll]
  · intro h
    rw [h]

end TabularShapes
