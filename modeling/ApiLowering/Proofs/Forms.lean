import ApiLowering.Lowering.Schema
import ApiLowering.Proofs.Nesting
import ApiLowering.Proofs.Report

/-!
The lowering of an inline schema, one function for each form that it can have. The equations are
those of the lowering itself, without what it carries along for its measure.
-/

set_option autoImplicit false

namespace ApiLowering.SchemaLowering

open ApiLowering.Composition (Place Step Visits weight)
open SchemaNode (PartOf)

section

variable (r : Resolver) (path : List String) (s : Schema)

def stepChange (step : Step) : Report Change :=
  changeOf step fun {reached _ _ node} _ => lower r reached node

def lowerComposed : Report Ir.Schema := do
  let changes ← Report.forEach (stepChange r) (Composition.walkAll r path s).steps
  match (Composition.walkAll r path s).failure with
  | some e => Report.fail (.resolve e)
  | none => return (Merged.ofChanges changes).finish (ownInfo s)

def lowerAmended (keys : List String) (member : SchemaNode) (description : Option String)
    (nullable : Bool) : Report Ir.Schema := do
  let inner ← (lower r path member).under keys
  return amend description nullable inner

def lowerTagged (d : Discriminator) : Report Ir.Schema := do
  let variants ← lowerMembers r path (unionMembers s).1 (taggedLabel d) 0 (unionMembers s).2
  let mapped ← mappedVariants r ((unionMembers s).2.filterMap SchemaNode.target?) d.mapping
  let base ← lowerProperties r path s.required (some d.propertyName) s.properties
  return .union ⟨none, ownInfo s, some d.propertyName, base, variants ++ mapped⟩

def lowerUnion : Report Ir.Schema := do
  let variants ← lowerMembers r path (unionMembers s).1 plainLabel 0 (unionMembers s).2
  let base ← lowerProperties r path s.required none s.properties
  return .union ⟨none, { ownInfo s with nullable := unionNullable s }, none, base, variants⟩

def partsOf : Parts where
  items _ :=
    match s.items with
    | some node => (lower r path node).under ["items"]
    | none => unknown Ir.Meta.blank
  additional _ :=
    match s.additionalProperties with
    | some (.schema node) => (lower r path node).under ["additionalProperties"]
    | _ => unknown Ir.Meta.blank
  properties _ := lowerProperties r path s.required none s.properties

def lowerForm : Form → Report Ir.Schema
  | .reduced index member =>
    lowerAmended r path ["allOf", toString index] member
      (annotate (ownInfo s) s.allOf).1 (annotate (ownInfo s) s.allOf).2
  | .composed => lowerComposed r path s
  | .tagged d => lowerTagged r path s d
  | .collapsed index member =>
    lowerAmended r path [(unionMembers s).1, toString index] member
      (ownInfo s).description (unionNullable s)
  | .union => lowerUnion r path s
  | .enumeration values => Enumeration.lower s values (ownInfo s)
  | .typed => lowerByType s (partsOf r path s) (ownInfo s)

theorem lowerInline_eq :
    lowerInline r path s = (do
      Extension.checkUnknown s.extensions
      lowerForm r path s (form s)) := by
  rw [lowerInline]
  congr 1
  funext _
  cases shape : form s with
  | composed =>
    -- the steps are attached there, since what they declare has to be smaller
    have plain := Report.forEach_attach (stepChange r) (Composition.walkAll r path s).steps
    rw [lowerForm, lowerComposed, ← plain]
    rfl
  | typed =>
    refine congrArg (fun parts => lowerByType s parts (ownInfo s)) ?_
    simp only [partsOf, Parts.mk.injEq, and_true]
    constructor
    · funext _
      cases s.items <;> rfl
    · funext _
      rcases s.additionalProperties with _ | (_ | _) <;> rfl
  | _ => rfl

end

variable {r : Resolver} {path : List String} {s : Schema} {schema : Ir.Schema}

theorem lowerInline_ok (done : (lowerInline r path s).outcome = .ok schema) :
    (lowerForm r path s (form s)).outcome = .ok schema := by
  rw [lowerInline_eq] at done
  obtain ⟨-, -, done⟩ := Report.bind_ok done
  exact done

theorem lowerInline_silent (silent : (lowerInline r path s).findings = []) :
    (lowerForm r path s (form s)).findings = [] := by
  rw [lowerInline_eq] at silent
  exact (Report.bind_silent rfl silent).2

theorem unionMember_part {node : SchemaNode} (listed : node ∈ (unionMembers s).2) :
    PartOf s node := by
  by_cases none : s.oneOf.isEmpty
  · rw [unionMembers, if_pos none] at listed
    exact .any listed
  · rw [unionMembers, if_neg none] at listed
    exact .one listed

theorem part_lt {node : SchemaNode} (part : PartOf s node) : sizeOf node < sizeOf s := by
  cases part with
  | items present => exact sizeOf_items_lt present
  | additional present => exact sizeOf_additional_lt present
  | property listed => exact Composition.property_lt listed
  | all listed => exact Composition.member_lt listed
  | one listed =>
    have member := List.sizeOf_lt_of_mem listed
    cases s
    simp only [Keywords.mk.sizeOf_spec] at member ⊢
    omega
  | any listed =>
    have member := List.sizeOf_lt_of_mem listed
    cases s
    simp only [Keywords.mk.sizeOf_spec] at member ⊢
    omega

/-- Induction along the lowering of schemas: an inline schema has its parts lowered on the same path, and
the declarations that a walk over it comes to where the walk comes to them. -/
theorem lower_induction (r : Resolver) {motive : List String → SchemaNode → Prop}
    (reference : ∀ {path : List String} {target : String}, motive path (.reference target))
    (inline : ∀ {path : List String} {s : Schema}, (∀ node, PartOf s node → motive path node) →
      (∀ reached t key node, Visits r (path, .inline s) (reached, .inline t) →
        (key, node) ∈ t.properties → motive reached node) → motive path (.inline s))
    (invalid : ∀ {path : List String} {value : Json}, motive path (.invalid value))
    (path : List String) (node : SchemaNode) : motive path node := by
  suffices each : ∀ place : Place, motive place.1 place.2 from each (path, node)
  intro place
  induction place using (measure (weight r)).wf.induction with
  | _ place ih =>
    obtain ⟨path, node⟩ := place
    cases node with
    | reference target => exact reference
    | inline s =>
      have own : r.pending path + sizeOf s < weight r (path, .inline s) := by
        simp only [weight, SchemaNode.inline.sizeOf_spec]
        omega
      refine inline (fun node part => ?_) fun reached t key node visited listed => ?_
      · exact ih (path, node) (Nat.lt_trans (Nat.add_lt_add_left (part_lt part) _) own)
      · exact ih (reached, node) (Nat.lt_trans (Composition.declared_lt visited listed) own)
    | invalid value => exact invalid

theorem lookup_found {target id : String} {node : SchemaNode} :
    r.lookupSchema target = .found id node ↔
      Pointer.componentId? "schemas" target = some id ∧ Entries.get? id r.schemas = some node := by
  constructor
  · intro leads
    cases named : Pointer.componentId? "schemas" target with
    | none =>
      simp only [Resolver.lookupSchema, named] at leads
      cases leads
    | some key =>
      cases present : Entries.get? key r.schemas with
      | none =>
        simp only [Resolver.lookupSchema, named, present] at leads
        cases leads
      | some found =>
        simp only [Resolver.lookupSchema, named, present] at leads
        cases leads
        exact ⟨rfl, present⟩
  · rintro ⟨named, present⟩
    simp only [Resolver.lookupSchema, named, present]

end ApiLowering.SchemaLowering
