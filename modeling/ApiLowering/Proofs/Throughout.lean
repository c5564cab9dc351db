import ApiLowering.Proofs.Rules

/-!
What holds throughout lowered schemas. A property that each form of a lowered schema has by itself as
soon as its pieces have it, and that annotations do not matter to, holds of everything that is lowered,
at any depth.
-/

set_option autoImplicit false

namespace ApiLowering.SchemaLowering

open ApiLowering.Composition (Place Visits)
open Ir.Schema (Throughout)
open Report (Certified Logic)

/-- A property that each form of a lowered schema has by itself if it holds throughout the pieces of
that form: `inv` is known of the places, and `noted` of the references that are noted. -/
structure EachForm (r : Resolver) (inv : Place → Prop) (noted : String → Prop)
    (own : Ir.Schema → Prop) : Prop where
  unknown (info : Ir.Meta) : own (.unknown info)
  reference {id : String} (is : noted id) : own (.reference Ir.Meta.blank id)
  primitive {path : List String} {s : Schema} {info : Ir.Meta} {value : Ir.PrimitiveType}
    (place : inv (path, .inline s)) (bound : ∀ bounds ∈ bounds? value,
      bounds = ⟨s.minimum, s.maximum⟩) : own (.primitive ⟨info, value⟩)
  enumeration {info : Ir.Meta} {overrides : Entries Extension.EnumOverride} {values : List Json}
    {nullable : Bool} {members : List Ir.EnumValue}
    (made : (Enumeration.members overrides [] values).outcome = .ok (nullable, members)) :
    own (.enumeration ⟨none, info, members⟩)
  array (info : Ir.Meta) (items : Ir.Schema) : own (.array info items)
  map (info : Ir.Meta) (value : Ir.Schema) : own (.map info value)
  object {path : List String} {s : Schema} {info : Ir.Meta}
    {properties : List (Ir.Property Ir.Schema)} (additional : Bool) (place : inv (path, .inline s))
    (listed : Listed (Throughout own) s.properties none properties) :
    own (.object ⟨none, info, properties, [], [], additional⟩)
  composed {m : Merged} {info : Ir.Meta} (gathered : Gathered (Throughout own) m)
    (parents : ∀ id ∈ m.parents, noted id) : own (m.finish info)
  union {path : List String} {s : Schema} {u : Ir.UnionSchema Ir.Schema}
    (place : inv (path, .inline s)) (nameless : u.name = none)
    (tagged : ∀ key ∈ u.discriminant, ∃ d, form s = .tagged d ∧
      (lowerTagged r path s d).outcome = .ok (.union u))
    (base : Listed (Throughout own) s.properties u.discriminant u.baseProperties)
    (variants : Variants (Throughout own) u.discriminant.isSome u.variants) : own (.union u)
  annotated (f : Ir.Meta → Ir.Meta) {s : Ir.Schema} (is : own s) : own (s.mapInfo f)

variable {logic : Logic} {r : Resolver} {inv : Place → Prop} {noted : String → Prop}
  {own : Ir.Schema → Prop}

theorem EachForm.rules (each : EachForm r inv noted own) (tolerant : logic.Tolerant)
    (mark : ∀ {id}, Known r id → logic.Holds (fun _ => noted id) (Report.mark id))
    (refused : ∀ e, logic.Holds (Throughout own) (Report.fail e)) :
    Rules logic r inv noted (Throughout own) := by
  have kept (f : Ir.Meta → Ir.Meta) (s : Ir.Schema) (all : Throughout own s) :
      Throughout own (s.mapInfo f) := Ir.Schema.throughout_mapInfo all (each.annotated f)
  constructor
  case tolerant => exact tolerant
  case mark => exact mark
  case refused => exact fun _ _ => refused _
  case unknown => exact fun _ => Ir.Schema.throughout_leaf (each.unknown _) rfl
  case reference => exact fun is => Ir.Schema.throughout_leaf (each.reference is) rfl
  case primitive =>
    exact fun place _ bound => Ir.Schema.throughout_leaf (each.primitive place bound) rfl
  case enumeration => exact fun _ made => Ir.Schema.throughout_leaf (each.enumeration made) rfl
  case array =>
    exact fun _ is => Ir.Schema.throughout_iff.mpr
      ⟨each.array _ _, List.forall_mem_singleton.mpr is⟩
  case map =>
    exact fun _ is => Ir.Schema.throughout_iff.mpr ⟨each.map _ _, List.forall_mem_singleton.mpr is⟩
  case object =>
    exact fun additional place _ listed => Ir.Schema.throughout_object
      (each.object additional place listed) (listed_good kept listed)
      fun _ here => absurd here List.not_mem_nil
  case composed =>
    exact fun _ gathered parents =>
      finished_throughout kept gathered (each.composed gathered parents)
  case union =>
    exact fun place _ nameless tagged base variants => Ir.Schema.throughout_union
      (each.union place nameless tagged base variants) (listed_good kept base)
      fun v here => (variants v here).2
  case amend => exact fun _ _ is => kept _ _ is

section

variable {fine : String → Prop}

theorem EachForm.certified (each : EachForm r inv fine own) (known : ∀ id, Known r id → fine id)
    (closed : Closed r inv) (path : List String) (node : SchemaNode) (place : inv (path, node)) :
    Certified (Throughout own) fine (lower r path node) := by
  have tolerant := (Logic.certifying_blind fine).tolerant
  have rules : Rules (Report.certifying fine) r inv fine (Throughout own) :=
    each.rules tolerant (fun {id} there => Report.certified_mono
      (Report.certified_mark (known id there)) fun _ _ => known id there)
      fun _ => Report.certified_fail _
  exact lower_holds rules closed (fun _ => Report.certified_findings _ trivial) path node place

theorem EachForm.component (each : EachForm r inv fine own) (known : ∀ id, Known r id → fine id)
    (closed : Closed r inv) (renamed : ∀ raw name s, NameVariants.derive? raw none = some name →
      own s → own (Ir.Schema.setName name s)) (path : List String) (id : String) {node : SchemaNode}
    (places : ∀ deeper, inv (deeper, node)) :
    Certified (Throughout own) fine (lowerComponent r path id node) :=
  lowerComponent_holds (Logic.certifying_blind fine).tolerant (fun _ _ => Report.certified_fail _)
    (fun deeper _ => each.certified known closed deeper node (places deeper))
    fun raw name s derived all => Ir.Schema.throughout_setName all (renamed raw name s derived)

theorem lower_noting (known : ∀ id, Known r id → fine id) (path : List String) (node : SchemaNode) :
    Certified (fun _ => True) fine (lower r path node) := by
  have rules : Rules (Report.certifying fine) r (fun _ => True) (fun _ => True) fun _ => True :=
    indifferent_rules (Logic.certifying_blind fine).tolerant
      (fun {id} there => Report.certified_mark (known id there)) fun _ _ => Report.certified_fail _
  exact lower_holds rules ⟨fun _ _ => trivial, fun _ _ _ => trivial⟩
    (fun _ => Report.certified_findings _ trivial) path node trivial

end

section

variable {given : List Schema} {s : Schema} {node : SchemaNode} {place last : Place}

def Inside (given : List Schema) (node : SchemaNode) : Prop := node.inlineSchemas ⊆ given

theorem inside_here (inside : Inside given (.inline s)) : s ∈ given := given_here inside

theorem inside_closed (components : ∀ e ∈ r.schemas, Inside given e.2) :
    Closed r fun place => Inside given place.2 := given_closed components

end

end ApiLowering.SchemaLowering
