import ApiLowering.Proofs.Rules

/-!
Shapes of lowered schemas. Whatever comes out of the lowering has the shape of itself, as long as the
bounds of numbers are numbers; marking a schema optional does not change its shape.
-/

set_option autoImplicit false

namespace ApiLowering

namespace Ir

instance : LawfulBEq NameVariants where
  rfl {name} := by
    cases name
    simp [BEq.beq, instBEqNameVariants.beq]
  eq_of_beq {a b} same := by
    cases a
    cases b
    simpa [BEq.beq, instBEqNameVariants.beq] using same

namespace Schema

theorem shape_setOptional (optional : Bool) (s : Schema) : (s.setOptional optional).shape = s.shape := by
  cases s <;> rfl

theorem shape_unlessRequired (required : Bool) (s : Schema) :
    (s.unlessRequired required).shape = s.shape := by
  by_cases needed : required = true
  · rw [unlessRequired, if_pos needed]
  · rw [unlessRequired, if_neg needed, shape_setOptional]

theorem sameShape_congr {a b c d : Schema} (left : a.shape = c.shape) (right : b.shape = d.shape) :
    a.sameShape b = c.sameShape d := by
  rw [sameShape, sameShape, left, right]

-- A schema that has the shape of itself.
def Shapely (s : Schema) : Prop := s.sameShape s = true

-- What it takes to have the shape of itself, for each form of a schema.
theorem shapely_iff (s : Schema) : s.Shapely ↔
    match s with
    | .object o =>
      equalProperties (shapeProperties o.properties) (shapeProperties o.properties) = true
    | .union u =>
      equalProperties (shapeProperties u.baseProperties) (shapeProperties u.baseProperties) = true ∧
        equalVariants (shapeVariants u.variants) (shapeVariants u.variants) = true
    | .primitive p => p.value.equal p.value = true
    | .array _ part | .map _ part => part.Shapely
    | .enumeration _ | .reference _ _ | .unknown _ => True := by
  cases s with
  | object o =>
    simp only [Shapely, sameShape, shape, equal, equalConflicts, beq_self_eq_true, Bool.and_true,
      Bool.true_and]
  | union u =>
    simp only [Shapely, sameShape, shape, equal, beq_self_eq_true, Bool.and_true, Bool.true_and,
      Bool.and_eq_true]
  | _ => simp only [Shapely, sameShape, shape, equal, beq_self_eq_true, Bool.and_self, Bool.true_and]

theorem shapeProperties_equal {properties : List (Property Schema)}
    (each : ∀ p ∈ properties, p.schema.Shapely) :
    equalProperties (shapeProperties properties) (shapeProperties properties) = true := by
  induction properties with
  | nil => rw [shapeProperties, equalProperties]
  | cons p rest ih =>
    obtain ⟨key, name, schema, required⟩ := p
    have first : equal schema.shape schema.shape = true := each _ List.mem_cons_self
    have later := ih fun p here => each p (List.mem_cons_of_mem _ here)
    simp only [shapeProperties, equalProperties, beq_self_eq_true, first, later, Bool.and_self]

theorem shapeVariants_equal {variants : List (Variant Schema)}
    (each : ∀ v ∈ variants, v.schema.Shapely) :
    equalVariants (shapeVariants variants) (shapeVariants variants) = true := by
  induction variants with
  | nil => rw [shapeVariants, equalVariants]
  | cons v rest ih =>
    obtain ⟨value, schema⟩ := v
    have first : equal schema.shape schema.shape = true := each _ List.mem_cons_self
    have later := ih fun v here => each v (List.mem_cons_of_mem _ here)
    simp only [shapeVariants, equalVariants, beq_self_eq_true, first, later, Bool.and_self]

theorem shapely_mapInfo {s : Schema} (f : Meta → Meta) (shapely : s.Shapely) :
    (s.mapInfo f).Shapely := by
  have same := (shapely_iff s).mp shapely
  apply (shapely_iff (s.mapInfo f)).mpr
  cases s <;> exact same

end Schema

-- Bounds that equal themselves: a double that is no number differs from itself.
def NumberConstraints.Real (bounds : NumberConstraints) : Prop :=
  (∀ x ∈ bounds.minimum, x.isNaN = false) ∧ ∀ x ∈ bounds.maximum, x.isNaN = false

theorem sameNumber_self {x : Option Binary64} (number : ∀ y ∈ x, y.isNaN = false) :
    sameNumber x x = true := by
  cases x with
  | none => rfl
  | some y =>
    have real := number y rfl
    simp only [sameNumber, Binary64.equal, real, beq_self_eq_true, Bool.not_false, Bool.true_or,
      Bool.and_self]

theorem NumberConstraints.equal_self {bounds : NumberConstraints} (number : bounds.Real) :
    bounds.equal bounds = true := by
  rw [equal, sameNumber_self number.1, sameNumber_self number.2, Bool.and_self]

end Ir

namespace SchemaLowering

open Ir.Schema (Shapely shapely_iff shapeProperties_equal shapeVariants_equal shapely_mapInfo)

theorem primitive_equal {value : Ir.PrimitiveType}
    (number : ∀ bounds ∈ bounds? value, bounds.Real) : value.equal value = true := by
  cases value with
  | int bounds | int64 bounds | float bounds | double bounds =>
    exact Ir.NumberConstraints.equal_self (number bounds rfl)
  | string _ | boolean | date | dateTime | base64 | binary =>
    simp only [Ir.PrimitiveType.equal, beq_self_eq_true]

def Real (s : Schema) : Prop := Ir.NumberConstraints.Real ⟨s.minimum, s.maximum⟩

def RealNode (node : SchemaNode) : Prop := ∀ s ∈ node.inlineSchemas, Real s

open ApiLowering.Composition (Place Visits)

variable {r : Resolver}

theorem realNode_part {s : Schema} {node : SchemaNode} (real : RealNode (.inline s))
    (part : SchemaNode.PartOf s node) : RealNode node := given_part real part

theorem realNode_visits {place last : Place} (components : ∀ e ∈ r.schemas, RealNode e.2)
    (real : RealNode place.2) (visited : Visits r place last) : RealNode last.2 :=
  given_visits components real visited

theorem shapely_rules (r : Resolver) :
    Rules (Report.certifying fun _ => True) r (fun place => RealNode place.2) (fun _ => True)
      Shapely where
  tolerant _ _ := Report.certified_any _
  mark _ := Report.certified_any _
  refused _ _ := Report.certified_fail _
  unknown _ := (shapely_iff _).mpr trivial
  reference _ := (shapely_iff _).mpr trivial
  enumeration _ _ := (shapely_iff _).mpr trivial
  primitive real _ own := (shapely_iff _).mpr
    (primitive_equal fun bounds here => own bounds here ▸ given_here real)
  array _ fine := (shapely_iff _).mpr fine
  map _ fine := (shapely_iff _).mpr fine
  object _ _ _ listed := (shapely_iff _).mpr
    (shapeProperties_equal (listed_good (fun f _ => shapely_mapInfo f) listed))
  composed _ gathered _ := (shapely_iff _).mpr
    (shapeProperties_equal (finished_good (fun f _ => shapely_mapInfo f) gathered rfl).1)
  union _ _ _ _ base variants := (shapely_iff _).mpr
    ⟨shapeProperties_equal (listed_good (fun f _ => shapely_mapInfo f) base),
      shapeVariants_equal fun v here => (variants v here).2⟩
  amend _ _ fine := shapely_mapInfo _ fine

theorem lower_shapely (components : ∀ e ∈ r.schemas, RealNode e.2) {path : List String}
    {node : SchemaNode} {schema : Ir.Schema} (real : RealNode node)
    (done : (lower r path node).outcome = .ok schema) : schema.Shapely :=
  (lower_holds (shapely_rules r) (given_closed components) (fun _ => Report.certified_any _) path node
    real).outcome schema done

end SchemaLowering

end ApiLowering
