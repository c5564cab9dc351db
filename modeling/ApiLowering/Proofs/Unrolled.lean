import ApiLowering.Proofs.Walk

/-!
Walks without paths. What a walk declares depends on the schemas that it is led to and not on the
path on which it gets there: the members of a composition bring their declarations in order, each
depth first and through its references, and a schema's own properties come after those of its
members.
-/

set_option autoImplicit false

namespace ApiLowering

-- A reference leads nowhere: to a component that is missing, or to no schema at all.
def Resolver.Lost (r : Resolver) (target : String) : Prop :=
  ∀ id node, r.lookupSchema target ≠ .found id node

namespace Composition

variable {r : Resolver} {path breadcrumbs : List String} {direct : Bool} {s t : Schema}
  {node : SchemaNode}

abbrev Declaration : Type := String × SchemaNode

mutual
-- The declarations of properties that a schema brings into a composition.
inductive Brings (r : Resolver) : SchemaNode → List Declaration → Prop where
  | component {target id : String} {node : SchemaNode} {declared : List Declaration}
      (leads : r.lookupSchema target = .found id node) (inside : Brings r node declared) :
      Brings r (.reference target) declared
  | dangling {target : String} (lost : r.Lost target) : Brings r (.reference target) []
  | inline {s : Schema} {declared : List Declaration} (members : BringsAll r s.allOf declared) :
      Brings r (.inline s) (declared ++ s.properties)
  | invalid {value : Json} : Brings r (.invalid value) []

inductive BringsAll (r : Resolver) : List SchemaNode → List Declaration → Prop where
  | nil : BringsAll r [] []
  | cons {member : SchemaNode} {rest : List SchemaNode} {first more : List Declaration}
      (here : Brings r member first) (later : BringsAll r rest more) :
      BringsAll r (member :: rest) (first ++ more)
end

mutual
theorem brings_unique {node : SchemaNode} {a b : List Declaration} (one : Brings r node a)
    (other : Brings r node b) : a = b := by
  match one, other with
  | .component leads inside, .component again also =>
    cases leads.symm.trans again
    exact brings_unique inside also
  | .component leads _, .dangling lost => exact absurd leads (lost _ _)
  | .dangling lost, .component leads _ => exact absurd leads (lost _ _)
  | .dangling _, .dangling _ => rfl
  | .inline members, .inline others => rw [bringsAll_unique members others]
  | .invalid, .invalid => rfl

theorem bringsAll_unique {members : List SchemaNode} {a b : List Declaration}
    (one : BringsAll r members a) (other : BringsAll r members b) : a = b := by
  match one, other with
  | .nil, .nil => rfl
  | .cons here later, .cons also more => rw [brings_unique here also, bringsAll_unique later more]
end

namespace Step

def declaration? : Step → Option Declaration
  | .declare _ _ key node => some (key, node)
  | _ => none

-- The component that a member refers to.
def parent? : Step → Option String
  | .follow id true => some id
  | _ => none

end Step

theorem ownSteps_declare (path breadcrumbs : List String) (s : Schema) :
    (ownSteps path breadcrumbs s).filterMap Step.declaration? = s.properties := by
  rw [ownSteps, List.filterMap_cons_none rfl, List.filterMap_map]
  exact List.filterMap_some

theorem shapeSteps_declare (breadcrumbs : List String) (s : Schema) :
    (shapeSteps breadcrumbs s).filterMap Step.declaration? = [] := by
  unfold shapeSteps
  split <;> rfl

theorem walkMembers_brings {index : Nat} {members : List SchemaNode}
    (each : ∀ member ∈ members, ∀ keys, (walk r path keys direct member).failure = none →
      Brings r member ((walk r path keys direct member).steps.filterMap Step.declaration?))
    (done : (walkMembers r path breadcrumbs direct index members).failure = none) :
    BringsAll r members
      ((walkMembers r path breadcrumbs direct index members).steps.filterMap
        Step.declaration?) := by
  induction members generalizing index with
  | nil =>
    rw [walkMembers]
    exact .nil
  | cons member rest ih =>
    rw [walkMembers] at done ⊢
    obtain ⟨first, later, steps⟩ := next_done done
    rw [steps, List.filterMap_append]
    exact .cons (each member List.mem_cons_self _ first)
      (ih (fun node listed => each node (List.mem_cons_of_mem _ listed)) later)

theorem walk_brings (r : Resolver) (path breadcrumbs : List String) (direct : Bool)
    (node : SchemaNode) (done : (walk r path breadcrumbs direct node).failure = none) :
    Brings r node ((walk r path breadcrumbs direct node).steps.filterMap Step.declaration?) := by
  induction path, node using walk_induction r generalizing breadcrumbs direct with
  | opened leads entered ih =>
    rw [walk_entered leads entered] at done ⊢
    obtain ⟨-, inside, steps⟩ := next_done done
    rw [steps, List.filterMap_append]
    exact .component leads (ih breadcrumbs false inside)
  | refused leads entered =>
    rw [walk_refused leads entered] at done
    cases done
  | missing leads =>
    rw [walk_missing leads]
    exact .dangling fun _ _ found => nomatch leads.symm.trans found
  | unsupported leads =>
    rw [walk_unsupported leads]
    exact .dangling fun _ _ found => nomatch leads.symm.trans found
  | inline ih =>
    rw [walk] at done ⊢
    obtain ⟨-, done, outer⟩ := next_done done
    obtain ⟨nested, -, inner⟩ := next_done done
    rw [outer, inner, List.filterMap_append, List.filterMap_append, shapeSteps_declare,
      ownSteps_declare, List.nil_append]
    exact .inline (walkMembers_brings (fun member listed keys => ih member listed keys false) nested)
  | invalid =>
    rw [walk]
    exact .invalid

theorem walkAll_brings (done : (walkAll r path s).failure = none) :
    Brings r (.inline s) ((walkAll r path s).steps.filterMap Step.declaration?) := by
  obtain ⟨nested, -, steps⟩ := next_done done
  rw [walkAll, steps, List.filterMap_append, ownSteps_declare]
  exact .inline (walkMembers_brings (fun member _ keys => walk_brings r path keys true member) nested)

theorem no_parents {steps : List Step} {place : Place}
    (inside : ∀ step ∈ steps, step.Stands r place false) : steps.filterMap Step.parent? = [] := by
  refine List.filterMap_eq_nil_iff.mpr fun step here => ?_
  have stands := inside step here
  cases step with
  | follow id flag =>
    obtain ⟨_, _, _, -, -, straight⟩ := stands
    cases flag with
    | false => rfl
    | true => cases (straight rfl).1
  | found _ | constrain _ _ | declare _ _ _ _ => rfl

-- The component that a reference stands for.
def resolved? (r : Resolver) : SchemaNode → Option String
  | .reference target =>
    match r.lookupSchema target with
    | .found id _ => some id
    | _ => none
  | _ => none

theorem walk_parent (breadcrumbs : List String)
    (done : (walk r path breadcrumbs true node).failure = none) :
    (walk r path breadcrumbs true node).steps.filterMap Step.parent? = (resolved? r node).toList := by
  cases node with
  | reference target =>
    cases leads : r.lookupSchema target with
    | found id component =>
      cases entered : r.enter path (Pointer.ofSchema id) with
      | error e =>
        rw [walk_refused leads entered] at done
        cases done
      | ok deeper =>
        rw [walk_entered leads entered] at done ⊢
        obtain ⟨-, -, steps⟩ := next_done done
        have deep := no_parents fun step here => walk_stands r deeper breadcrumbs false component here
        rw [steps, List.filterMap_append, deep, resolved?, leads]
        rfl
    | missing id =>
      rw [walk_missing leads, resolved?, leads]
      rfl
    | unsupported =>
      rw [walk_unsupported leads, resolved?, leads]
      rfl
  | inline s =>
    -- a walk that starts at an inline schema follows no reference directly
    refine (List.filterMap_eq_nil_iff.mpr fun step here => ?_).trans rfl
    have stands := walk_stands r path breadcrumbs true (.inline s) here
    cases step with
    | follow id flag =>
      obtain ⟨_, _, _, -, -, straight⟩ := stands
      cases flag with
      | false => rfl
      | true => cases (straight rfl).2
    | found _ | constrain _ _ | declare _ _ _ _ => rfl
  | invalid value =>
    rw [walk]
    rfl

theorem walkMembers_parents {index : Nat} {members : List SchemaNode}
    (done : (walkMembers r path breadcrumbs true index members).failure = none) :
    (walkMembers r path breadcrumbs true index members).steps.filterMap Step.parent? =
      members.filterMap (resolved? r) := by
  induction members generalizing index with
  | nil =>
    rw [walkMembers]
    rfl
  | cons member rest ih =>
    rw [walkMembers] at done ⊢
    obtain ⟨first, later, steps⟩ := next_done done
    rw [steps, List.filterMap_append, walk_parent _ first, ih later, List.filterMap_cons]
    cases resolved? r member <;> rfl

theorem walkAll_parents (done : (walkAll r path s).failure = none) :
    (walkAll r path s).steps.filterMap Step.parent? = s.allOf.filterMap (resolved? r) := by
  obtain ⟨nested, -, steps⟩ := next_done done
  have own : (ownSteps path [] s).filterMap Step.parent? = [] :=
    no_parents (r := r) fun step here => own_stands here
  rw [walkAll, steps, List.filterMap_append, walkMembers_parents nested, own, List.append_nil]

end Composition

end ApiLowering
