import Mathlib.Data.Nat.Init
import ApiLowering.Proofs.WellFormed

/-!
Schemas of one shape, seen place by place. Two schemas have the same shape just if the same places are
in both of them and what stands there resembles each other: it is of one form, and but for documentation
it says the same beside the schemas that it holds. Schemas that have the shape of a third one have the
same shape, since bounds compare by value, and doubles that equal a third one equal each other.
-/

set_option autoImplicit false

namespace ApiLowering

theorem Binary64.equal_euclidean {x y z : Binary64} (one : x.equal y = true)
    (other : x.equal z = true) : y.equal z = true := by
  simp only [equal, Bool.and_eq_true, Bool.or_eq_true, Bool.not_eq_true', beq_iff_eq] at one other ⊢
  obtain ⟨⟨-, left⟩, same⟩ := one
  obtain ⟨⟨-, right⟩, also⟩ := other
  refine ⟨⟨left, right⟩, ?_⟩
  have zero {u v : Binary64} (bits : u.bits = v.bits) (is : u.isZero = true) : v.isZero = true := by
    cases u
    cases v
    cases bits
    exact is
  rcases same with same | ⟨_, low⟩ <;> rcases also with also | ⟨is, high⟩
  · exact .inl (same.symm.trans also)
  · exact .inr ⟨zero same is, high⟩
  · exact .inr ⟨low, zero also ‹_›⟩
  · exact .inr ⟨low, high⟩

namespace Ir

theorem sameNumber_euclidean {x y z : Option Binary64} (one : sameNumber x y = true)
    (other : sameNumber x z = true) : sameNumber y z = true := by
  match x, y, z with
  | none, none, none => rfl
  | some _, some _, some _ => exact Binary64.equal_euclidean one other
  | none, some _, _ | some _, none, _ => cases one
  | none, none, some _ | some _, some _, none => cases other

theorem NumberConstraints.equal_euclidean {x y z : NumberConstraints} (one : x.equal y = true)
    (other : x.equal z = true) : y.equal z = true := by
  simp only [equal, Bool.and_eq_true] at one other ⊢
  exact ⟨sameNumber_euclidean one.1 other.1, sameNumber_euclidean one.2 other.2⟩

theorem PrimitiveType.equal_euclidean {x y z : PrimitiveType} (one : x.equal y = true)
    (other : x.equal z = true) : y.equal z = true := by
  unfold equal at one
  split at one
  case h_5 =>
    cases eq_of_beq one
    exact other
  -- the four types that have bounds compare by them, and only with their own kind
  all_goals
    cases z <;> first
      | exact NumberConstraints.equal_euclidean one other
      | cases other

-- What an object or a union says of a property, beside its schema.
def Property.signature (p : Property Schema) : String × NameVariants × Bool :=
  (p.key, p.name, p.required)

def EnumValue.signature (v : EnumValue) : NameVariants × String := (v.name, v.value)

namespace Schema

-- A step from a schema to one that it holds. What its conflicts hold belongs to its documentation.
inductive Step where
  | property (index : Nat)
  | baseProperty (index : Nat)
  | variant (index : Nat)
  | items
  | value
deriving DecidableEq, Repr

-- The steps from a whole schema to one at any depth.
abbrev Place : Type := List Step

def part? : Schema → Step → Option Schema
  | .object o, .property index => o.properties[index]?.map Property.schema
  | .union u, .baseProperty index => u.baseProperties[index]?.map Property.schema
  | .union u, .variant index => u.variants[index]?.map Variant.schema
  | .array _ items, .items => some items
  | .map _ value, .value => some value
  | _, _ => none

def at? : Schema → Place → Option Schema
  | s, [] => some s
  | s, step :: place => (s.part? step).bind fun part => part.at? place

-- Two schemas of one form that say the same, whatever is documented and whichever schemas they hold.
def Resembles (s t : Schema) : Prop :=
  s.info.nullable = t.info.nullable ∧
    match s, t with
    | .object o, .object p =>
      o.properties.map Property.signature = p.properties.map Property.signature ∧
        o.parents = p.parents ∧ o.additionalProperties = p.additionalProperties
    | .union u, .union v =>
      u.discriminant = v.discriminant ∧
        u.baseProperties.map Property.signature = v.baseProperties.map Property.signature ∧
        u.variants.map Variant.discriminantValue = v.variants.map Variant.discriminantValue
    | .enumeration e, .enumeration f =>
      e.values.map EnumValue.signature = f.values.map EnumValue.signature
    | .primitive p, .primitive q => p.value.equal q.value = true
    | .reference _ id, .reference _ other => id = other
    | .array _ _, .array _ _ | .map _ _, .map _ _ | .unknown _, .unknown _ => True
    | _, _ => False

variable {a b c s part : Schema} {step : Step} {place : Place}

abbrev SameShape (a b : Schema) : Prop := a.sameShape b = true

-- Two lists that hold schemas, compared by the schemas at each index.
theorem held_cons {α : Type} {held : α → Schema} {x y : α} {xs ys : List α} :
    (∀ i : Nat, Option.Rel SameShape ((x :: xs)[i]?.map held) ((y :: ys)[i]?.map held)) ↔
      SameShape (held x) (held y) ∧
        ∀ i : Nat, Option.Rel SameShape (xs[i]?.map held) (ys[i]?.map held) := by
  rw [← Nat.and_forall_add_one]
  simp only [List.getElem?_cons_zero, List.getElem?_cons_succ, Option.map_some, Option.rel_some_some]

theorem shapeProperties_iff {ps qs : List (Property Schema)} :
    equalProperties (shapeProperties ps) (shapeProperties qs) = true ↔
      ps.map Property.signature = qs.map Property.signature ∧
        ∀ i : Nat, Option.Rel SameShape (ps[i]?.map Property.schema) (qs[i]?.map Property.schema) := by
  induction ps generalizing qs with
  | nil =>
    cases qs with
    | nil => simp [shapeProperties, equalProperties]
    | cons q qs => simp [shapeProperties, equalProperties]
  | cons p ps ih =>
    cases qs with
    | nil => simp [shapeProperties, equalProperties]
    | cons q qs =>
      rw [held_cons]
      simp only [shapeProperties, equalProperties, Bool.and_eq_true, beq_iff_eq, ih, List.map_cons,
        List.cons.injEq, Property.signature, Prod.mk.injEq, SameShape, sameShape]
      constructor
      · rintro ⟨⟨⟨⟨key, name⟩, schema⟩, required⟩, labels, later⟩
        exact ⟨⟨⟨key, name, required⟩, labels⟩, schema, later⟩
      · rintro ⟨⟨⟨key, name, required⟩, labels⟩, schema, later⟩
        exact ⟨⟨⟨⟨key, name⟩, schema⟩, required⟩, labels, later⟩

theorem shapeVariants_iff {vs ws : List (Variant Schema)} :
    equalVariants (shapeVariants vs) (shapeVariants ws) = true ↔
      vs.map Variant.discriminantValue = ws.map Variant.discriminantValue ∧
        ∀ i : Nat, Option.Rel SameShape (vs[i]?.map Variant.schema) (ws[i]?.map Variant.schema) := by
  induction vs generalizing ws with
  | nil =>
    cases ws with
    | nil => simp [shapeVariants, equalVariants]
    | cons w ws => simp [shapeVariants, equalVariants]
  | cons v vs ih =>
    cases ws with
    | nil => simp [shapeVariants, equalVariants]
    | cons w ws =>
      rw [held_cons]
      simp only [shapeVariants, equalVariants, Bool.and_eq_true, beq_iff_eq, ih, List.map_cons,
        List.cons.injEq, SameShape, sameShape]
      constructor
      · rintro ⟨⟨value, schema⟩, values, later⟩
        exact ⟨⟨value, values⟩, schema, later⟩
      · rintro ⟨⟨value, values⟩, schema, later⟩
        exact ⟨⟨value, schema⟩, values, later⟩

theorem shapeValues_iff {vs ws : List EnumValue} :
    (vs.map fun v => { v with description := none }) =
        (ws.map fun v => { v with description := none }) ↔
      vs.map EnumValue.signature = ws.map EnumValue.signature := by
  induction vs generalizing ws with
  | nil => cases ws <;> simp
  | cons v vs ih =>
    cases ws with
    | nil => simp
    | cons w ws =>
      simp only [List.map_cons, List.cons.injEq, ih, EnumValue.signature, EnumValue.mk.injEq,
        Prod.mk.injEq, and_true]

theorem shapeInfo_iff {m n : Meta} : shapeInfo m = shapeInfo n ↔ m.nullable = n.nullable := by
  simp only [shapeInfo, Meta.mk.injEq, true_and, and_true]

theorem forall_step {p : Step → Prop} : (∀ step, p step) ↔
    (∀ i, p (.property i)) ∧ (∀ i, p (.baseProperty i)) ∧ (∀ i, p (.variant i)) ∧ p .items ∧
      p .value := by
  constructor
  · exact fun all => ⟨fun i => all _, fun i => all _, fun i => all _, all _, all _⟩
  · rintro ⟨properties, base, variants, items, value⟩ (i | i | i | _ | _)
    · exact properties i
    · exact base i
    · exact variants i
    · exact items
    · exact value

-- Two schemas have the same shape just if they resemble each other and each step leads from both of
-- them to schemas of the same shape, or from neither of them anywhere.
theorem sameShape_step : a.sameShape b = true ↔
    Resembles a b ∧ ∀ step, Option.Rel SameShape (a.part? step) (b.part? step) := by
  have nowhere : Option.Rel SameShape none none := .none
  rw [forall_step]
  cases a <;> cases b
  case object.object o p =>
    simp only [sameShape, shape, equal, equalConflicts, Bool.and_eq_true, beq_iff_eq, shapeInfo_iff,
      shapeProperties_iff, true_and, and_true, Resembles, info, part?]
    constructor
    · rintro ⟨⟨⟨nullable, labels, properties⟩, parents⟩, additional⟩
      exact ⟨⟨nullable, labels, parents, additional⟩, properties, fun _ => nowhere,
        fun _ => nowhere, nowhere, nowhere⟩
    · rintro ⟨⟨nullable, labels, parents, additional⟩, properties, -⟩
      exact ⟨⟨⟨nullable, labels, properties⟩, parents⟩, additional⟩
  case union.union u v =>
    simp only [sameShape, shape, equal, Bool.and_eq_true, beq_iff_eq, shapeInfo_iff,
      shapeProperties_iff, shapeVariants_iff, true_and, Resembles, info, part?]
    constructor
    · rintro ⟨⟨⟨nullable, discriminant⟩, labels, base⟩, values, variants⟩
      exact ⟨⟨nullable, discriminant, labels, values⟩, fun _ => nowhere, base, variants, nowhere,
        nowhere⟩
    · rintro ⟨⟨nullable, discriminant, labels, values⟩, -, base, variants, -⟩
      exact ⟨⟨⟨nullable, discriminant⟩, labels, base⟩, values, variants⟩
  -- what holds at most one schema, and schemas of two forms
  all_goals simp [sameShape, shape, equal, Resembles, info, part?, shapeInfo_iff, shapeValues_iff]

theorem part_mem (held : s.part? step = some part) : part ∈ s.parts := by
  cases s with
  | object o =>
    cases step <;> simp only [part?, reduceCtorEq] at held
    obtain ⟨p, here, same⟩ := Option.map_eq_some_iff.mp held
    exact List.mem_append_left _ (List.mem_map.mpr ⟨p, List.mem_of_getElem? here, same⟩)
  | union u =>
    cases step <;> simp only [part?, reduceCtorEq] at held
    · obtain ⟨p, here, same⟩ := Option.map_eq_some_iff.mp held
      exact List.mem_append_left _ (List.mem_map.mpr ⟨p, List.mem_of_getElem? here, same⟩)
    · obtain ⟨v, here, same⟩ := Option.map_eq_some_iff.mp held
      exact List.mem_append_right _ (List.mem_map.mpr ⟨v, List.mem_of_getElem? here, same⟩)
  | array info items =>
    cases step <;> simp only [part?, reduceCtorEq, Option.some.injEq] at held
    exact List.mem_singleton.mpr held.symm
  | map info value =>
    cases step <;> simp only [part?, reduceCtorEq, Option.some.injEq] at held
    exact List.mem_singleton.mpr held.symm
  | enumeration | primitive | reference | unknown => cases held

theorem resembles_of_sameShape (alike : SameShape a b) :
    Option.Rel Resembles (a.at? place) (b.at? place) := by
  induction place generalizing a b with
  | nil => exact .some (sameShape_step.mp alike).1
  | cons step place ih =>
    have parts := (sameShape_step.mp alike).2 step
    rw [at?, at?]
    generalize a.part? step = first, b.part? step = second at parts ⊢
    cases parts with
    | none => exact .none
    | some same => exact ih same

theorem sameShape_of_resembles
    (alike : ∀ place, Option.Rel Resembles (a.at? place) (b.at? place)) : SameShape a b := by
  induction a using parts_induction generalizing b with
  | each a ih =>
    have own : Resembles a b := Option.rel_some_some.mp (alike [])
    refine sameShape_step.mpr ⟨own, fun step => ?_⟩
    have below (place : Place) := alike (step :: place)
    simp only [at?] at below
    cases held : a.part? step <;> cases also : b.part? step <;> rw [held, also] at below
    · exact .none
    · cases below []
    · cases below []
    · exact .some (ih _ (part_mem held) below)

/-- Two schemas have the same shape just if they resemble each other at every place. -/
theorem sameShape_iff_places : a.sameShape b = true ↔
    ∀ place, Option.Rel Resembles (a.at? place) (b.at? place) :=
  ⟨fun alike _ => resembles_of_sameShape alike, sameShape_of_resembles⟩

-- Schemas that resemble a third one are of its form.
theorem resembles_euclidean (one : Resembles a b) (other : Resembles a c) : Resembles b c := by
  obtain ⟨nullable, same⟩ := one
  obtain ⟨also, alike⟩ := other
  refine ⟨nullable.symm.trans also, ?_⟩
  cases a <;> cases b <;> try (cases same; done)
  all_goals cases c <;> try (cases alike; done)
  case object.object.object =>
    obtain ⟨labels, parents, additional⟩ := same
    obtain ⟨labelled, inherited, further⟩ := alike
    exact ⟨labels.symm.trans labelled, parents.symm.trans inherited, additional.symm.trans further⟩
  case union.union.union =>
    obtain ⟨discriminant, labels, values⟩ := same
    obtain ⟨told, labelled, valued⟩ := alike
    exact ⟨discriminant.symm.trans told, labels.symm.trans labelled, values.symm.trans valued⟩
  case primitive.primitive.primitive => exact PrimitiveType.equal_euclidean same alike
  case enumeration.enumeration.enumeration | reference.reference.reference =>
    exact same.symm.trans alike
  case array.array.array | map.map.map | unknown.unknown.unknown => trivial

/-- Two schemas that have the shape of a third one have the same shape. -/
theorem sameShape_euclidean (one : a.sameShape b = true) (other : a.sameShape c = true) :
    b.sameShape c = true := by
  refine sameShape_iff_places.mpr fun place => ?_
  have first := sameShape_iff_places.mp one place
  have second := sameShape_iff_places.mp other place
  generalize a.at? place = s, b.at? place = t, c.at? place = u at first second ⊢
  cases first with
  | none => exact second
  | some alike =>
    cases second with
    | some also => exact .some (resembles_euclidean alike also)

end Schema

end Ir

end ApiLowering
