import ApiLowering.Lowering.Resolution

/-!
Composition of schemas. The members of a composition are walked depth first, references to
components included; the walk lists in order what it meets, and ends at a reference that cannot be
entered. Everything declared on the way weighs less than the walked node: it is part of it, or of a
component that was pending before.
-/

set_option autoImplicit false

namespace ApiLowering

namespace Composition

def otherShape? (s : Schema) : Option String :=
  if !s.enumValues.isEmpty || s.constValue.isSome then some "an enum"
  else if !s.oneOf.isEmpty || !s.anyOf.isEmpty then some "a union"
  else if s.items.isSome then some "an array"
  else
    let types :=
      match s.type with
      | some (.single type) => [type]
      | some (.multiple types) => types
      | none => []
    match types.find? fun t => t ≠ .object ∧ t ≠ .null with
    | some .array => some "an array"
    | some _ => some "a primitive"
    | none => none

inductive Step where
  | found (finding : Ir.Finding)
  -- A reference to a component; a direct one stands among the walked members themselves.
  | follow (id : String) (direct : Bool)
  | constrain (required : List String) (additional : Bool)
  | declare (path breadcrumbs : List String) (key : String) (node : SchemaNode)

structure Trail where
  steps : List Step
  failure : Option ResolveError

namespace Trail

def empty : Trail := ⟨[], none⟩

def one (step : Step) : Trail := ⟨[step], none⟩

def next (first : Trail) (second : Unit → Trail) : Trail :=
  match first.failure with
  | some _ => first
  | none =>
    let more := second ()
    ⟨first.steps ++ more.steps, more.failure⟩

end Trail

def ownSteps (path breadcrumbs : List String) (s : Schema) : List Step :=
  .constrain s.required s.allowsAdditional ::
    s.properties.map fun e => .declare path (breadcrumbs ++ [e.1]) e.1 e.2

def shapeSteps (breadcrumbs : List String) (s : Schema) : List Step :=
  match otherShape? s with
  | some shape =>
    [.found ⟨.malformedNode, breadcrumbs,
      "allOf member is " ++ shape ++ "; only its object properties are merged"⟩]
  | none => []

theorem sizeOf_allOf_lt (s : Schema) : sizeOf s.allOf < sizeOf s := by
  cases s
  simp only [Keywords.mk.sizeOf_spec]
  omega

theorem sizeOf_properties_lt (s : Schema) : sizeOf s.properties < sizeOf s := by
  cases s
  simp only [Keywords.mk.sizeOf_spec]
  omega

abbrev Place : Type := List String × SchemaNode

-- The places that a walk comes to: a walk goes from a reference to the component that it opens, and
-- from an inline schema to its members.
inductive Visits (r : Resolver) : Place → Place → Prop where
  | here {place : Place} : Visits r place place
  | component {path deeper : List String} {target id : String} {node : SchemaNode} {last : Place}
      (leads : r.lookupSchema target = .found id node)
      (entered : r.enter path (Pointer.ofSchema id) = .ok deeper)
      (further : Visits r (deeper, node) last) : Visits r (path, .reference target) last
  | member {path : List String} {s : Schema} {node : SchemaNode} {last : Place}
      (listed : node ∈ s.allOf) (further : Visits r (path, node) last) :
      Visits r (path, .inline s) last

noncomputable def weight (r : Resolver) (place : Place) : Nat :=
  r.pending place.1 + sizeOf place.2

theorem component_lt {r : Resolver} {path deeper : List String} {target id : String}
    {node : SchemaNode} (leads : r.lookupSchema target = .found id node)
    (entered : r.enter path (Pointer.ofSchema id) = .ok deeper) :
    weight r (deeper, node) < weight r (path, .reference target) := by
  have less := Resolver.pending_enter (Resolver.lookup_mem leads) entered
  simp only [weight]
  omega

theorem member_lt {s : Schema} {node : SchemaNode} (listed : node ∈ s.allOf) :
    sizeOf node < sizeOf s :=
  Nat.lt_trans (List.sizeOf_lt_of_mem listed) (sizeOf_allOf_lt s)

theorem weight_member {r : Resolver} {path : List String} {s : Schema} {node : SchemaNode}
    (listed : node ∈ s.allOf) : weight r (path, node) < weight r (path, .inline s) := by
  have less := member_lt listed
  simp only [weight, SchemaNode.inline.sizeOf_spec]
  omega

theorem property_lt {s : Schema} {key : String} {node : SchemaNode}
    (listed : (key, node) ∈ s.properties) : sizeOf node < sizeOf s := by
  have entry := List.sizeOf_lt_of_mem listed
  have properties := sizeOf_properties_lt s
  simp only [Prod.mk.sizeOf_spec] at entry
  omega

theorem weight_visits {r : Resolver} {place last : Place} (visited : Visits r place last) :
    weight r last ≤ weight r place := by
  induction visited with
  | here => exact Nat.le_refl _
  | component leads entered _ ih => exact Nat.le_trans ih (Nat.le_of_lt (component_lt leads entered))
  | member listed _ ih => exact Nat.le_trans ih (Nat.le_of_lt (weight_member listed))

theorem declared_lt {r : Resolver} {path reached : List String} {s t : Schema} {key : String}
    {node : SchemaNode} (visited : Visits r (path, .inline s) (reached, .inline t))
    (listed : (key, node) ∈ t.properties) : weight r (reached, node) < r.pending path + sizeOf s := by
  have smaller := property_lt listed
  cases visited with
  | here =>
    simp only [weight]
    omega
  | member among further =>
    have less := member_lt among
    have bound := weight_visits further
    simp only [weight, SchemaNode.inline.sizeOf_spec] at bound ⊢
    omega

mutual
def walk (r : Resolver) (path breadcrumbs : List String) (direct : Bool) (node : SchemaNode) :
    Trail :=
  match node with
  | .reference target =>
    match _leads : r.lookupSchema target with
    | .found id component =>
      match _entered : r.enter path (Pointer.ofSchema id) with
      | .error e => ⟨[.follow id direct], some e⟩
      | .ok deeper =>
        (Trail.one (.follow id direct)).next fun _ => walk r deeper breadcrumbs false component
    | .missing id =>
      .one (.found ⟨.danglingReference, breadcrumbs,
        "allOf member " ++ target ++ " points at missing schema " ++ id⟩)
    | .unsupported =>
      .one (.found ⟨.unsupportedReference, breadcrumbs,
        "allOf member " ++ target ++ " does not point into components.schemas"⟩)
  | .inline s =>
    (Trail.mk (shapeSteps breadcrumbs s) none).next fun _ =>
      (walkMembers r path breadcrumbs false 0 s.allOf).next fun _ =>
        ⟨ownSteps path breadcrumbs s, none⟩
  | .invalid value =>
    .one (.found ⟨.malformedNode, breadcrumbs,
      "allOf member is " ++ value.kind ++ ", not a schema"⟩)
termination_by r.pending path + sizeOf node
decreasing_by
  · exact component_lt _leads _entered
  · have less := sizeOf_allOf_lt s
    simp only [SchemaNode.inline.sizeOf_spec]
    omega

def walkMembers (r : Resolver) (path breadcrumbs : List String) (direct : Bool) (index : Nat)
    (members : List SchemaNode) : Trail :=
  match members with
  | [] => .empty
  | member :: rest =>
    (walk r path (breadcrumbs ++ ["allOf", toString index]) direct member).next fun _ =>
      walkMembers r path breadcrumbs direct (index + 1) rest
termination_by r.pending path + sizeOf members
decreasing_by
  · simp only [List.cons.sizeOf_spec]
    omega
  · simp only [List.cons.sizeOf_spec]
    omega
end

-- The walk over all members of a composition, its own properties last.
def walkAll (r : Resolver) (path : List String) (s : Schema) : Trail :=
  (walkMembers r path [] true 0 s.allOf).next fun _ => ⟨ownSteps path [] s, none⟩

section

variable {r : Resolver} {path breadcrumbs : List String} {direct : Bool} {node : SchemaNode}

theorem walk_found {target id : String} (leads : r.lookupSchema target = .found id node) :
    walk r path breadcrumbs direct (.reference target) =
      match r.enter path (Pointer.ofSchema id) with
      | .error e => ⟨[.follow id direct], some e⟩
      | .ok deeper =>
        (Trail.one (.follow id direct)).next fun _ => walk r deeper breadcrumbs false node := by
  -- the walk remembers what it found and entered for its measure, so both are matched again
  rw [walk]
  split
  · rename_i again
    cases leads.symm.trans again
    split
    · rename_i failed
      simp only [failed]
    · rename_i entered
      simp only [entered]
  · rename_i missing
    cases leads.symm.trans missing
  · rename_i unsupported
    cases leads.symm.trans unsupported

theorem walk_entered {deeper : List String} {target id : String}
    (leads : r.lookupSchema target = .found id node)
    (entered : r.enter path (Pointer.ofSchema id) = .ok deeper) :
    walk r path breadcrumbs direct (.reference target) =
      (Trail.one (.follow id direct)).next fun _ => walk r deeper breadcrumbs false node := by
  rw [walk_found leads, entered]

theorem walk_refused {target id : String} {e : ResolveError}
    (leads : r.lookupSchema target = .found id node)
    (failed : r.enter path (Pointer.ofSchema id) = .error e) :
    walk r path breadcrumbs direct (.reference target) = ⟨[.follow id direct], some e⟩ := by
  rw [walk_found leads, failed]

theorem walk_missing {target id : String} (leads : r.lookupSchema target = .missing id) :
    walk r path breadcrumbs direct (.reference target) =
      .one (.found ⟨.danglingReference, breadcrumbs,
        "allOf member " ++ target ++ " points at missing schema " ++ id⟩) := by
  rw [walk]
  split
  · rename_i found
    cases leads.symm.trans found
  · rename_i again
    cases leads.symm.trans again
    rfl
  · rename_i unsupported
    cases leads.symm.trans unsupported

theorem walk_unsupported {target : String} (leads : r.lookupSchema target = .unsupported) :
    walk r path breadcrumbs direct (.reference target) =
      .one (.found ⟨.unsupportedReference, breadcrumbs,
        "allOf member " ++ target ++ " does not point into components.schemas"⟩) := by
  rw [walk]
  split
  · rename_i found
    cases leads.symm.trans found
  · rename_i missing
    cases leads.symm.trans missing
  · rfl

/-- Induction along a walk: a reference opens a component, unless it is refused or leads nowhere, and an
inline schema has its members walked on the same path. -/
theorem walk_induction (r : Resolver) {motive : List String → SchemaNode → Prop}
    (opened : ∀ {path deeper : List String} {target id : String} {node : SchemaNode},
      r.lookupSchema target = .found id node →
      r.enter path (Pointer.ofSchema id) = .ok deeper → motive deeper node →
      motive path (.reference target))
    (refused : ∀ {path : List String} {target id : String} {node : SchemaNode} {e : ResolveError},
      r.lookupSchema target = .found id node →
      r.enter path (Pointer.ofSchema id) = .error e → motive path (.reference target))
    (missing : ∀ {path : List String} {target id : String}, r.lookupSchema target = .missing id →
      motive path (.reference target))
    (unsupported : ∀ {path : List String} {target : String},
      r.lookupSchema target = .unsupported → motive path (.reference target))
    (inline : ∀ {path : List String} {s : Schema}, (∀ member ∈ s.allOf, motive path member) →
      motive path (.inline s))
    (invalid : ∀ {path : List String} {value : Json}, motive path (.invalid value))
    (path : List String) (node : SchemaNode) : motive path node := by
  suffices each : ∀ place : Place, motive place.1 place.2 from each (path, node)
  intro place
  induction place using (measure (weight r)).wf.induction with
  | _ place ih =>
    obtain ⟨path, node⟩ := place
    cases node with
    | reference target =>
      cases leads : r.lookupSchema target with
      | found id component =>
        cases entered : r.enter path (Pointer.ofSchema id) with
        | error e => exact refused leads entered
        | ok deeper =>
          exact opened leads entered (ih (deeper, component) (component_lt leads entered))
      | missing id => exact missing leads
      | unsupported => exact unsupported leads
    | inline s => exact inline fun member listed => ih (path, member) (weight_member listed)
    | invalid value => exact invalid

end

theorem mem_next {first : Trail} {second : Unit → Trail} {step : Step}
    (here : step ∈ (first.next second).steps) : step ∈ first.steps ∨ step ∈ (second ()).steps := by
  unfold Trail.next at here
  split at here
  · exact Or.inl here
  · exact List.mem_append.mp here

-- What a step of the walk from a place is about. Only the reference at which a walk starts can be
-- followed directly.
def Step.Stands (r : Resolver) (place : Place) (direct : Bool) : Step → Prop
  | .found _ => True
  | .follow id flag => ∃ path target node, Visits r place (path, .reference target) ∧
      r.lookupSchema target = .found id node ∧
      (flag = true → direct = true ∧ place = (path, .reference target))
  | .constrain required additional => ∃ path t, Visits r place (path, .inline t) ∧
      required = t.required ∧ additional = t.allowsAdditional
  | .declare reached _ key node => ∃ t, Visits r place (reached, .inline t) ∧
      (key, node) ∈ t.properties

theorem Step.Stands.further {r : Resolver} {place next : Place} {direct : Bool} {step : Step}
    (stands : step.Stands r next false)
    (onward : ∀ last, Visits r next last → Visits r place last) : step.Stands r place direct := by
  cases step with
  | found _ => trivial
  | follow id flag =>
    obtain ⟨path, target, node, visited, leads, never⟩ := stands
    exact ⟨path, target, node, onward _ visited, leads, fun flagged => nomatch (never flagged).1⟩
  | constrain required additional =>
    obtain ⟨path, t, visited, same⟩ := stands
    exact ⟨path, t, onward _ visited, same⟩
  | declare reached breadcrumbs key node =>
    obtain ⟨t, visited, listed⟩ := stands
    exact ⟨t, onward _ visited, listed⟩

theorem own_stands {r : Resolver} {path breadcrumbs : List String} {s : Schema} {direct : Bool}
    {step : Step} (here : step ∈ ownSteps path breadcrumbs s) :
    step.Stands r (path, .inline s) direct := by
  rcases List.mem_cons.mp here with same | there
  · subst same
    exact ⟨path, s, .here, rfl, rfl⟩
  · obtain ⟨e, listed, same⟩ := List.mem_map.mp there
    subst same
    exact ⟨s, .here, listed⟩

theorem shape_stands {r : Resolver} {place : Place} {breadcrumbs : List String} {s : Schema}
    {direct : Bool} {step : Step} (here : step ∈ shapeSteps breadcrumbs s) :
    step.Stands r place direct := by
  unfold shapeSteps at here
  split at here
  · cases List.mem_singleton.mp here
    trivial
  · cases here

-- What is met on a walk over several members is met on the walk from one of them.
theorem mem_walkMembers {r : Resolver} {path breadcrumbs : List String} {direct : Bool}
    {index : Nat} {members : List SchemaNode} {step : Step}
    (here : step ∈ (walkMembers r path breadcrumbs direct index members).steps) :
    ∃ member ∈ members, ∃ keys, step ∈ (walk r path keys direct member).steps := by
  induction members generalizing index with
  | nil =>
    rw [walkMembers] at here
    cases here
  | cons member rest ih =>
    rw [walkMembers] at here
    rcases mem_next here with first | second
    · exact ⟨member, List.mem_cons_self, _, first⟩
    · obtain ⟨other, among, keys, there⟩ := ih second
      exact ⟨other, List.mem_cons_of_mem _ among, keys, there⟩

theorem walk_stands (r : Resolver) (path breadcrumbs : List String) (direct : Bool)
    (node : SchemaNode) {step : Step} (here : step ∈ (walk r path breadcrumbs direct node).steps) :
    step.Stands r (path, node) direct := by
  induction path, node using walk_induction r generalizing breadcrumbs direct with
  | @opened path deeper target id component leads entered ih =>
    rw [walk_entered leads entered] at here
    rcases mem_next here with opening | inside
    · cases List.mem_singleton.mp opening
      exact ⟨path, target, component, .here, leads, fun flagged => ⟨flagged, rfl⟩⟩
    · exact (ih breadcrumbs false inside).further fun _ => .component leads entered
  | @refused path target id component e leads entered =>
    rw [walk_refused leads entered] at here
    cases List.mem_singleton.mp here
    exact ⟨path, target, component, .here, leads, fun flagged => ⟨flagged, rfl⟩⟩
  | missing leads =>
    rw [walk_missing leads] at here
    cases List.mem_singleton.mp here
    trivial
  | unsupported leads =>
    rw [walk_unsupported leads] at here
    cases List.mem_singleton.mp here
    trivial
  | inline ih =>
    rw [walk] at here
    rcases mem_next here with shape | inside
    · exact shape_stands shape
    · rcases mem_next inside with nested | own
      · obtain ⟨member, listed, keys, there⟩ := mem_walkMembers nested
        exact (ih member listed keys false there).further fun _ => .member listed
      · exact own_stands own
  | invalid =>
    rw [walk] at here
    cases List.mem_singleton.mp here
    trivial

theorem walkAll_stands {r : Resolver} {path : List String} {s : Schema} {step : Step}
    (here : step ∈ (walkAll r path s).steps) :
    (∃ member ∈ s.allOf, step.Stands r (path, member) true) ∨
      step.Stands r (path, .inline s) false := by
  rcases mem_next here with nested | own
  · obtain ⟨member, listed, keys, there⟩ := mem_walkMembers nested
    exact .inl ⟨member, listed, walk_stands r path keys true member there⟩
  · exact .inr (own_stands own)

theorem walkAll_declares {r : Resolver} {path reached keys : List String} {s : Schema}
    {key : String} {part : SchemaNode}
    (here : .declare reached keys key part ∈ (walkAll r path s).steps) :
    ∃ t, Visits r (path, .inline s) (reached, .inline t) ∧ (key, part) ∈ t.properties := by
  rcases walkAll_stands here with ⟨member, among, t, visited, listed⟩ | own
  · exact ⟨t, .member among visited, listed⟩
  · exact own

end Composition

end ApiLowering
