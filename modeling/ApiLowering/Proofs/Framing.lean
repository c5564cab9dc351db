import ApiLowering.Proofs.Failure
import ApiLowering.Proofs.InContext
import ApiLowering.Proofs.Recursion

/-!
The frame of the lowering of schemas. Lowering a schema in a context opens references, fails at any
point, and leaves behind nothing but findings and references noted outside requests.
-/

set_option autoImplicit false

namespace ApiLowering

open SchemaLowering (Change Merged changeOf propertyName? stepTurn)

namespace Composition

-- The changes that the steps of a walk make, one after the other, up to where the walk fails.
def replay (r : Resolver) : List Step → Merged → Report Merged
  | [], m => pure m
  | step :: rest, m => do
    let change ← stepTurn (SchemaLowering.lower r) step
    replay r rest (change m)

def Trail.replay (r : Resolver) (trail : Trail) (m : Merged) : Report Merged := do
  let merged ← Composition.replay r trail.steps m
  match trail.failure with
  | some e => Report.fail (.resolve e)
  | none => pure merged

variable {r : Resolver} {m : Merged}

theorem replay_append (first second : List Step) (m : Merged) :
    replay r (first ++ second) m = replay r first m >>= replay r second := by
  induction first generalizing m with
  | nil => exact (pure_bind m _).symm
  | cons step rest ih =>
    rw [List.cons_append, replay, replay, bind_assoc]
    simp only [ih]

theorem replay_next (first : Trail) (second : Unit → Trail) (m : Merged) :
    (first.next second).replay r m = first.replay r m >>= (second ()).replay r := by
  obtain ⟨steps, failure⟩ := first
  cases failure with
  | some e =>
    simp only [Trail.next, Trail.replay, bind_assoc]
    rfl
  | none =>
    simp only [Trail.next, Trail.replay, replay_append, bind_assoc, pure_bind]

theorem replay_one (step : Step) (m : Merged) :
    (Trail.one step).replay r m =
      stepTurn (SchemaLowering.lower r) step >>= fun change => pure (change m) := by
  simp only [Trail.one, Trail.replay, replay, bind_assoc, pure_bind]

theorem replay_changes (steps : List Step) (m : Merged) :
    (do
      let changes ← Report.forEach (stepTurn (SchemaLowering.lower r)) steps
      return changes.foldl (fun m change => change m) m : Report Merged) = replay r steps m := by
  induction steps generalizing m with
  | nil => exact pure_bind _ _
  | cons step rest ih =>
    rw [Report.forEach, replay]
    simp only [bind_assoc, pure_bind, List.foldl_cons, ih]

theorem composed_replay (s : Schema) (trail : Trail) :
    SchemaLowering.composedTurn (SchemaLowering.lower r) s trail = (do
      let merged ← trail.replay r .empty
      return merged.finish (SchemaLowering.ownInfo s)) := by
  obtain ⟨steps, failure⟩ := trail
  unfold SchemaLowering.composedTurn Trail.replay Merged.ofChanges
  rw [← replay_changes]
  cases failure with
  | some e =>
    simp only [bind_assoc, pure_bind]
    rfl
  | none => simp only [bind_assoc, pure_bind]

end Composition

namespace Procedure

variable {scope : Scope} {keys : List String}

theorem performs_found (keys : List String) (finding : Ir.Finding) :
    Performs scope keys (record (finding.under keys)) ⟨[finding], [], .ok ()⟩ := fun _ _ => rfl

theorem performs_find (kind : Ir.FindingKind) (message : String) :
    Performs scope keys (record ⟨kind, keys, message⟩) (Report.find kind message) := by
  have found : Performs scope keys _ (Report.find kind message) :=
    performs_found keys ⟨kind, [], message⟩
  rwa [Ir.Finding.under, List.append_nil] at found

theorem performs_mark (id : String) : Performs scope keys (mark id) (Report.mark id) := by
  intro c _
  rw [Context.run]
  simp only [Report.under, Report.mark, List.map_nil, List.append_nil]
  rfl

end Procedure

namespace InContext

open ApiLowering.Composition (Trail Step walk walkMembers)
open Procedure (Performs performs_bind performs_entering performs_find performs_found performs_leaf
  performs_mark performs_pure performs_refused performs_return performs_under
  performs_withResolver)
open SchemaLowering (Parts)

-- A handler that does what lowering the node does, for a node at some place.
def Handles (lower : Handler) (scope : Scope) (node : SchemaNode) : Prop :=
  ∀ required keys, Performs scope keys (lower required keys node)
    (SchemaLowering.lowerAs scope.resolver scope.path required node)

-- An absorber that makes the changes that a walk lists.
def Absorbs (absorb : Absorber) (scope : Scope) (node : SchemaNode) : Prop :=
  ∀ keys breadcrumbs direct m, Performs scope keys (absorb (keys ++ breadcrumbs) direct node m)
    ((walk scope.resolver scope.path breadcrumbs direct node).replay scope.resolver m)

variable {scope : Scope} {lower : Handler} {absorb : Absorber} {keys : List String} {s : Schema}
  {node : SchemaNode}

theorem handles_required (handles : Handles lower scope node) (keys : List String) :
    Performs scope keys (lower true keys node)
      (SchemaLowering.lower scope.resolver scope.path node) := by
  have same : SchemaLowering.lowerAs scope.resolver scope.path true node =
      SchemaLowering.lower scope.resolver scope.path node := bind_pure _
  rw [← same]
  exact handles true keys

theorem handles_under (handles : Handles lower scope node) (keys more : List String) :
    Performs scope keys (lower true (keys ++ more) node)
      ((SchemaLowering.lower scope.resolver scope.path node).under more) :=
  performs_under (handles_required handles (keys ++ more))

theorem property_performs (handles : Handles lower scope node) (required : List String)
    (key : String) : Performs scope keys (property lower keys required key node)
      (SchemaLowering.propertyTurn (SchemaLowering.lower scope.resolver scope.path) required key
        node) := by
  unfold property SchemaLowering.propertyTurn
  refine performs_under ?_
  cases propertyName? key node with
  | some name =>
    have lowered := performs_return (handles (required.contains key) (keys ++ [key]))
      fun schema => some (⟨key, name, schema, required.contains key⟩ : Ir.Property Ir.Schema)
    simpa only [SchemaLowering.lowerAs, bind_assoc, pure_bind] using lowered
  | none => exact performs_return (performs_find _ _) _

theorem properties_performs {all : List (String × SchemaNode)} (keys : List String)
    (handles : ∀ e ∈ all, Handles lower scope e.2) (required : List String)
    (exclude : Option String) : Performs scope keys (properties lower keys required exclude all)
      (SchemaLowering.propertiesTurn (SchemaLowering.lower scope.resolver scope.path) required
        exclude all) := by
  induction all with
  | nil => exact performs_pure _
  | cons e rest ih =>
    obtain ⟨key, node⟩ := e
    have later := ih fun other listed => handles other (List.mem_cons_of_mem _ listed)
    rw [properties, SchemaLowering.propertiesTurn]
    split
    · exact later
    · have first := handles _ List.mem_cons_self
      refine performs_bind (property_performs first required key) fun _ => ?_
      exact performs_return later _

theorem members_performs {all : List SchemaNode} (keys : List String)
    (handles : ∀ member ∈ all, Handles lower scope member) (keyword : String)
    (label : SchemaNode → Report SchemaLowering.Label) (index : Nat) :
    Performs scope keys (members lower keys keyword label index all)
      (SchemaLowering.membersTurn (SchemaLowering.lower scope.resolver scope.path) keyword label
        index all) := by
  induction all generalizing index with
  | nil => exact performs_pure _
  | cons member rest ih =>
    have later := ih (fun other listed => handles other (List.mem_cons_of_mem _ listed)) (index + 1)
    rw [members, SchemaLowering.membersTurn]
    refine performs_bind (performs_under ?_) fun _ => performs_return later _
    refine performs_bind (performs_leaf _ _) fun found => ?_
    cases found with
    | some value =>
      exact performs_return (handles_required (handles _ List.mem_cons_self) _) _
    | none => exact performs_pure _

structure TasksPerform (scope : Scope) (keys : List String) (tasks : Tasks) (parts : Parts) :
    Prop where
  items : Performs scope keys tasks.items (parts.items ())
  additional : Performs scope keys tasks.additional (parts.additional ())
  properties : Performs scope keys tasks.properties (parts.properties ())

theorem tasksOf_performs (handles : ∀ node, SchemaNode.PartOf s node → Handles lower scope node) :
    TasksPerform scope keys (tasksOf lower keys s)
      (SchemaLowering.partsTurn (SchemaLowering.lower scope.resolver scope.path) s) where
  items := by
    unfold tasksOf SchemaLowering.partsTurn
    cases present : s.items with
    | none => exact performs_pure _
    | some node => exact handles_under (handles node (.items present)) keys _
  additional := by
    unfold tasksOf SchemaLowering.partsTurn
    rcases present : s.additionalProperties with _ | _ | node
    · exact performs_pure _
    · exact performs_pure _
    · exact handles_under (handles node (.additional present)) keys _
  properties := properties_performs keys (fun e listed => handles e.2 (.property listed)) _ _

section

variable {tasks : Tasks} {parts : Parts}

theorem object_performs (performs : TasksPerform scope keys tasks parts) (s : Schema)
    (info : Ir.Meta) :
    Performs scope keys (object s tasks info) (SchemaLowering.lowerObject s parts info) := by
  have mapped := performs_return performs.additional (Ir.Schema.map info)
  by_cases bare : s.properties.isEmpty = true
  · rw [object, SchemaLowering.lowerObject, if_pos bare, if_pos bare]
    rcases s.additionalProperties with _ | ⟨_ | _⟩ | node
    · exact mapped
    · exact performs_pure _
    · exact mapped
    · exact mapped
  · rw [object, SchemaLowering.lowerObject, if_neg bare, if_neg bare]
    exact performs_return performs.properties _

theorem typed_performs (performs : TasksPerform scope keys tasks parts) (s : Schema)
    (info : Ir.Meta) (type : SchemaType) :
    Performs scope keys (typed keys s tasks info type)
      (SchemaLowering.lowerTyped s parts info type) := by
  cases type with
  | array => exact performs_return performs.items _
  | object => exact object_performs performs s info
  | string | integer | number | boolean | null | unsupported =>
    exact performs_leaf keys _

theorem alternatives_performs (performs : TasksPerform scope keys tasks parts) (s : Schema)
    (types : List SchemaType) :
    Performs scope keys (alternatives keys s tasks types)
      (Report.forEach (SchemaLowering.lowerTyped s parts Ir.Meta.blank) types) := by
  induction types with
  | nil => exact performs_pure _
  | cons type rest ih =>
    refine performs_bind (typed_performs performs s _ type) fun _ => ?_
    exact performs_return ih _

theorem byType_performs (performs : TasksPerform scope keys tasks parts) (s : Schema)
    (info : Ir.Meta) :
    Performs scope keys (byType keys s tasks info) (SchemaLowering.lowerByType s parts info) := by
  unfold byType SchemaLowering.lowerByType
  rcases s.type with _ | type | types
  · dsimp only
    split
    · exact object_performs performs s info
    · split
      · exact typed_performs performs s info _
      · exact performs_pure _
  · exact typed_performs performs s info type
  · dsimp only
    generalize List.filter _ types = many
    rcases many with _ | ⟨type, _ | _⟩
    · exact performs_pure _
    · exact typed_performs performs s info type
    · exact performs_return (alternatives_performs performs s _) _

end

theorem amended_performs (handles : Handles lower scope node) (keys more : List String)
    (description : Option String) (nullable : Bool) :
    Performs scope keys (amended lower (keys ++ more) node description nullable)
      (SchemaLowering.amendedTurn (SchemaLowering.lower scope.resolver scope.path) more node
        description nullable) :=
  performs_return (handles_under handles keys more) _

-- The change that a declaring step makes lies under the keys of the declaration.
theorem stepTurn_declare (r : Resolver) (path breadcrumbs : List String) (key : String)
    (node : SchemaNode) (m : Merged) :
    (stepTurn (SchemaLowering.lower r) (.declare path breadcrumbs key node) >>= fun change =>
      (pure (change m) : Report Merged)) = (match propertyName? key node with
        | some name => do
          let schema ← SchemaLowering.lower r path node
          return m.declare key name schema
        | none => do
          Report.find .invalidIdentifier "property key is empty"
          return m : Report Merged).under breadcrumbs := by
  have bare {α : Type} (a : α) : (pure a : Report α).under breadcrumbs = pure a := rfl
  cases named : propertyName? key node with
  | some name =>
    simp only [stepTurn, changeOf, named, Report.under_bind, bare, bind_assoc, pure_bind]
  | none =>
    simp only [stepTurn, changeOf, named, Report.under_bind, bare, bind_assoc, pure_bind, id]

theorem declaration_performs (keys : List String) (handles : Handles lower scope node)
    (breadcrumbs : List String) (key : String) (m : Merged) :
    Performs scope keys (declaration lower (keys ++ breadcrumbs) key node m)
      (stepTurn (SchemaLowering.lower scope.resolver)
        (.declare scope.path (breadcrumbs ++ [key]) key node) >>= fun change =>
          pure (change m)) := by
  rw [stepTurn_declare]
  unfold declaration
  rw [List.append_assoc]
  refine performs_under ?_
  cases propertyName? key node with
  | some name => exact performs_return (handles_required handles _) _
  | none => exact performs_return (performs_find _ _) _

theorem declarations_performs {all : List (String × SchemaNode)} (keys : List String)
    (handles : ∀ e ∈ all, Handles lower scope e.2) (breadcrumbs : List String) (m : Merged) :
    Performs scope keys (declarations lower (keys ++ breadcrumbs) all m)
      (Composition.replay scope.resolver
        (all.map fun e => .declare scope.path (breadcrumbs ++ [e.1]) e.1 e.2) m) := by
  induction all generalizing m with
  | nil => exact performs_pure m
  | cons e rest ih =>
    obtain ⟨key, node⟩ := e
    have later := ih fun other listed => handles other (List.mem_cons_of_mem _ listed)
    have first := declaration_performs keys (handles _ List.mem_cons_self) breadcrumbs key m
    have both := performs_bind first later
    simp only [bind_assoc, pure_bind] at both
    exact both

theorem absorbOwn_performs (keys : List String)
    (handles : ∀ node, SchemaNode.PartOf s node → Handles lower scope node)
    (breadcrumbs : List String) (m : Merged) :
    Performs scope keys (absorbOwn lower (keys ++ breadcrumbs) s m)
      (Trail.replay scope.resolver ⟨Composition.ownSteps scope.path breadcrumbs s, none⟩ m) := by
  have declared := declarations_performs keys
    (fun e listed => handles e.2 (.property listed)) breadcrumbs
    (m.constrain s.required s.allowsAdditional)
  have same : Trail.replay scope.resolver ⟨Composition.ownSteps scope.path breadcrumbs s, none⟩ m =
      Composition.replay scope.resolver
        (s.properties.map fun e => .declare scope.path (breadcrumbs ++ [e.1]) e.1 e.2)
        (m.constrain s.required s.allowsAdditional) := by
    unfold Trail.replay Composition.ownSteps
    rw [Composition.replay]
    exact (bind_pure _).trans (pure_bind _ _)
  rw [same]
  exact declared

theorem absorbMembers_performs {all : List SchemaNode} (keys : List String)
    (absorbs : ∀ member ∈ all, Absorbs absorb scope member) (breadcrumbs : List String)
    (direct : Bool) (index : Nat) (m : Merged) :
    Performs scope keys (absorbMembers absorb (keys ++ breadcrumbs) direct index all m)
      ((walkMembers scope.resolver scope.path breadcrumbs direct index all).replay
        scope.resolver m) := by
  induction all generalizing index m with
  | nil =>
    rw [walkMembers]
    exact performs_pure m
  | cons member rest ih =>
    rw [walkMembers, Composition.replay_next, absorbMembers, List.append_assoc]
    refine performs_bind (absorbs member List.mem_cons_self keys _ direct m) fun next => ?_
    exact ih (fun other listed => absorbs other (List.mem_cons_of_mem _ listed)) (index + 1) next

-- A walk that is one step, with the finding of the step recorded by a procedure.
theorem found_performs (kind : Ir.FindingKind) (message : String) (breadcrumbs : List String)
    (m : Merged) :
    Performs scope keys (do
        Procedure.record ⟨kind, keys ++ breadcrumbs, message⟩
        return m : Procedure Merged)
      ((Trail.one (.found ⟨kind, breadcrumbs, message⟩)).replay scope.resolver m) := by
  rw [Composition.replay_one]
  exact performs_return (performs_found keys ⟨kind, breadcrumbs, message⟩) _

theorem noticeShape_performs (s : Schema) (breadcrumbs : List String) (m : Merged) :
    Performs scope keys (noticeShape (keys ++ breadcrumbs) s m)
      ((Trail.mk (Composition.shapeSteps breadcrumbs s) none).replay scope.resolver m) := by
  unfold noticeShape Composition.shapeSteps
  cases Composition.otherShape? s with
  | some shape => exact found_performs _ _ breadcrumbs m
  | none => exact performs_pure m

-- The reference is noted before it is opened, so also if it is refused.
theorem follow_performs {target id : String} {component : SchemaNode}
    (leads : scope.resolver.lookupSchema target = .found id component)
    (absorbs : ∀ deeper, scope.resolver.enter scope.path (Pointer.ofSchema id) = .ok deeper →
      Absorbs absorb { scope with path := deeper } component)
    (breadcrumbs : List String) (direct : Bool) (m : Merged) :
    Performs scope keys (do
        Procedure.mark id
        Procedure.entering (Pointer.ofSchema id)
          (absorb (keys ++ breadcrumbs) false component (m.follow id direct)))
      ((walk scope.resolver scope.path breadcrumbs direct (.reference target)).replay
        scope.resolver m) := by
  have follow : stepTurn (SchemaLowering.lower scope.resolver) (.follow id direct) =
      (do
        Report.mark id
        return fun m => m.follow id direct : Report Change) := rfl
  cases entered : scope.resolver.enter scope.path (Pointer.ofSchema id) with
  | error e =>
    rw [Composition.walk_refused leads entered]
    simp only [Trail.replay, Composition.replay, follow, bind_assoc, pure_bind]
    exact performs_bind (performs_mark id) fun _ => performs_refused entered
  | ok deeper =>
    rw [Composition.walk_entered leads entered, Composition.replay_next, Composition.replay_one,
      follow]
    simp only [bind_assoc, pure_bind]
    refine performs_bind (performs_mark id) fun _ => performs_entering entered ?_
    exact absorbs deeper entered keys breadcrumbs false _

theorem absorbNode_performs
    (absorbs : ∀ deeper next, SchemaLowering.Calls scope.resolver (scope.path, node) (deeper, next) →
      Absorbs absorb { scope with path := deeper } next)
    (handles : ∀ deeper next, SchemaLowering.Calls scope.resolver (scope.path, node) (deeper, next) →
      Handles lower { scope with path := deeper } next) :
    Absorbs (absorbNode absorb lower) scope node := by
  intro keys breadcrumbs direct m
  match node with
  | .reference target =>
    rw [absorbNode]
    refine performs_withResolver ?_
    cases leads : scope.resolver.lookupSchema target with
    | found id component =>
      exact follow_performs leads
        (fun deeper entered => absorbs deeper component (.component leads entered))
        breadcrumbs direct m
    | missing id =>
      rw [Composition.walk_missing leads]
      exact found_performs _ _ breadcrumbs m
    | unsupported =>
      rw [Composition.walk_unsupported leads]
      exact found_performs _ _ breadcrumbs m
  | .inline s =>
    rw [absorbNode, walk, Composition.replay_next]
    have parts : ∀ next, SchemaNode.PartOf s next → Handles lower scope next :=
      fun next part => handles scope.path next (.part part)
    have members : ∀ next ∈ s.allOf, Absorbs absorb scope next :=
      fun next listed => absorbs scope.path next (.part (.all listed))
    refine performs_bind (noticeShape_performs s breadcrumbs m) fun noticed => ?_
    rw [Composition.replay_next]
    refine performs_bind (absorbMembers_performs keys members breadcrumbs false 0 noticed)
      fun merged => ?_
    exact absorbOwn_performs keys parts breadcrumbs merged
  | .invalid value =>
    rw [walk]
    exact found_performs _ _ breadcrumbs m

theorem formed_performs
    (absorbs : ∀ next ∈ s.allOf, Absorbs absorb scope next)
    (handles : ∀ next, SchemaNode.PartOf s next → Handles lower scope next) :
    Performs scope keys (formed absorb lower keys s (SchemaLowering.form s))
      (SchemaLowering.formTurn scope.resolver (walk scope.resolver)
        (SchemaLowering.lower scope.resolver) scope.path s (SchemaLowering.form s)) := by
  have base (exclude : Option String) := properties_performs keys
    (fun e listed => handles e.2 (.property listed)) s.required exclude
  have variants (label : SchemaNode → Report SchemaLowering.Label) :=
    members_performs keys
      (fun member listed => handles member (SchemaLowering.unionMember_part listed))
      (SchemaLowering.unionMembers s).1 label 0
  cases shape : SchemaLowering.form s with
  | reduced index member =>
    exact amended_performs (handles member (.all (SchemaLowering.reduced_mem shape))) keys _ _ _
  | composed =>
    have walked : Composition.walkAllTurn (walk scope.resolver) scope.path s =
        Composition.walkAll scope.resolver scope.path s :=
      Composition.walkAllTurn_walk fun _ _ _ _ => rfl
    have merged := absorbMembers_performs keys absorbs [] true 0 .empty
    have own := absorbOwn_performs keys handles []
    rw [List.append_nil] at merged own
    rw [formed, SchemaLowering.formTurn, walked, Composition.composed_replay, Composition.walkAll,
      Composition.replay_next, bind_assoc]
    refine performs_bind merged fun _ => ?_
    exact performs_return (own _) _
  | tagged d =>
    refine performs_bind (variants _) fun _ => ?_
    refine performs_bind (performs_withResolver (performs_leaf keys _)) fun _ => ?_
    exact performs_return (base _) _
  | collapsed index member =>
    have part := SchemaLowering.unionMember_part (SchemaLowering.collapsed_mem shape)
    exact amended_performs (handles member part) keys _ _ _
  | union =>
    refine performs_bind (variants _) fun _ => ?_
    exact performs_return (base _) _
  | enumeration values => exact performs_leaf keys _
  | typed => exact byType_performs (tasksOf_performs handles) s _

theorem lowerNode_performs
    (absorbs : ∀ next, SchemaLowering.Calls scope.resolver (scope.path, node) (scope.path, next) →
      Absorbs absorb scope next)
    (handles : ∀ next, SchemaLowering.Calls scope.resolver (scope.path, node) (scope.path, next) →
      Handles lower scope next) :
    Handles (fun required keys => lowerNode absorb lower keys required) scope node := by
  intro required keys
  refine performs_return ?_ fun schema : Ir.Schema => schema.unlessRequired required
  rw [← SchemaLowering.lower_turn]
  match node with
  | .reference target => exact performs_withResolver (performs_leaf keys _)
  | .inline s =>
    refine performs_bind (performs_leaf keys _) fun _ => ?_
    exact formed_performs (fun next listed => absorbs next (.part (.all listed)))
      fun next part => handles next (.part part)
  | .invalid value => exact performs_return (performs_find _ _) _

/-- With fuel for a measure that falls with every call, the procedures do at a place what the walk
and the lowering report there. -/
theorem within_performs {r : Resolver} {measure : Composition.Place → Nat}
    (falls : SchemaLowering.Falls r measure) (exhausted : LoweringError) {fuel : Nat}
    (same : scope.resolver = r) (enough : measure (scope.path, node) < fuel) :
    Absorbs (absorbWithin exhausted fuel) scope node ∧
      Handles (lowerWithin exhausted fuel) scope node := by
  induction fuel generalizing scope node with
  | zero => exact absurd enough (Nat.not_lt_zero _)
  | succ fuel ih =>
    subst same
    have rest : ∀ deeper next, SchemaLowering.Calls scope.resolver (scope.path, node) (deeper, next) →
        Absorbs (absorbWithin exhausted fuel) { scope with path := deeper } next ∧
          Handles (lowerWithin exhausted fuel) { scope with path := deeper } next := by
      intro deeper next call
      have less := falls _ _ call
      exact ih rfl (Nat.lt_of_lt_of_le less (Nat.le_of_lt_succ enough))
    rw [absorbWithin, lowerWithin]
    constructor
    · exact absorbNode_performs (fun deeper next call => (rest deeper next call).1)
        fun deeper next call => (rest deeper next call).2
    · exact lowerNode_performs (fun next call => (rest scope.path next call).1)
        fun next call => (rest scope.path next call).2

theorem named_performs (id : String) (node : SchemaNode) (schema : Ir.Schema) :
    Performs scope [] (named id node schema)
      ((match NameVariants.derive? (SchemaLowering.componentTitle id node) none with
        | some name => return schema.setName name
        | none => do
          Report.find .invalidIdentifier LoweringError.emptyNameMessage
          return schema : Report Ir.Schema).under [id]) := by
  unfold named
  refine performs_under ?_
  cases NameVariants.derive? (SchemaLowering.componentTitle id node) none with
  | some name => exact performs_pure _
  | none => exact performs_return (performs_find _ _) _

theorem componentWithin_performs {r : Resolver} {measure : Composition.Place → Nat}
    (falls : SchemaLowering.Falls r measure) (exhausted : LoweringError) {fuel : Nat} {id : String}
    (same : scope.resolver = r)
    (enough : ∀ deeper, r.enter scope.path (Pointer.ofSchema id) = .ok deeper →
      measure (deeper, node) < fuel) :
    Performs scope [] (componentWithin exhausted fuel id node)
      (SchemaLowering.lowerComponent r scope.path id node) := by
  subst same
  unfold componentWithin SchemaLowering.lowerComponent
  cases entered : scope.resolver.enter scope.path (Pointer.ofSchema id) with
  | error e => exact performs_bind (performs_refused entered) (named_performs id node)
  | ok deeper =>
    dsimp only
    rw [Report.under_bind]
    refine performs_bind (performs_entering entered ?_) (named_performs id node)
    have same : { scope with path := deeper }.resolver = scope.resolver := rfl
    obtain ⟨-, handles⟩ := within_performs falls exhausted same (enough deeper entered)
    exact handles_under handles [] [id]

end InContext

namespace Context

open SchemaLowering (rank)

-- Lowers a schema in the context, with as much fuel as calls can be nested.
noncomputable def lowerSchema (c : Context) (required : Bool) (keys : List String)
    (node : SchemaNode) : Except LoweringError Ir.Schema × Context :=
  (InContext.lowerWithin .emptyName (rank c.scope.resolver (c.scope.path, node) + 1) required keys
    node).on c

noncomputable def lowerComponent (c : Context) (id : String) (node : SchemaNode) :
    Except LoweringError Ir.Schema × Context :=
  (InContext.componentWithin .emptyName
    (rank c.scope.resolver (c.scope.path ++ [Pointer.ofSchema id], node) + 1) id node).on c

variable {c : Context}

theorem lowerSchema_run (required : Bool) (keys : List String) (node : SchemaNode)
    (exhausted : LoweringError) {fuel : Nat}
    (enough : rank c.scope.resolver (c.scope.path, node) < fuel) :
    (InContext.lowerWithin exhausted fuel required keys node).on c =
      c.run ((SchemaLowering.lowerAs c.scope.resolver c.scope.path required node).under keys) := by
  have performs := (InContext.within_performs (SchemaLowering.rank_falls c.scope.resolver) exhausted
    rfl enough).2
  exact performs required keys c rfl

theorem lowerComponent_run (id : String) (node : SchemaNode) (exhausted : LoweringError) {fuel : Nat}
    (enough : rank c.scope.resolver (c.scope.path ++ [Pointer.ofSchema id], node) < fuel) :
    (InContext.componentWithin exhausted fuel id node).on c =
      c.run (SchemaLowering.lowerComponent c.scope.resolver c.scope.path id node) := by
  have within (deeper : List String)
      (entered : c.scope.resolver.enter c.scope.path (Pointer.ofSchema id) = .ok deeper) :
      rank c.scope.resolver (deeper, node) < fuel := by
    obtain ⟨-, rfl⟩ := Resolver.enter_ok entered
    exact enough
  have performs := InContext.componentWithin_performs (SchemaLowering.rank_falls c.scope.resolver)
    exhausted rfl within
  have bare (report : Report Ir.Schema) : report.under [] = report := by
    have same : Ir.Finding.under [] = fun finding => finding := rfl
    rw [Report.under, same, List.map_id']
  rw [performs c rfl, bare]

-- What is done inside a request keeps the frame, and notes nothing.
theorem insideRequest_frame {α : Type} {action : Context → α × Context}
    (framed : Frame { c with inRequest := true } (action { c with inRequest := true }).2) :
    c.Frame (c.insideRequest action).2 ∧ (c.insideRequest action).2.referenced = c.referenced :=
  ⟨⟨framed.scope, framed.discriminants, rfl, framed.findings, framed.referenced,
    fun _ => framed.silent rfl⟩, framed.silent rfl⟩

end Context

/-- Lowering a schema, or a component by its id, in a context does to it what running the report of
the lowering does. Whether it fails or not, every reference that it opened is closed again and the
context is in a request if it was before; what was found before stays in front; references are noted
in addition, and none in a request. How much fuel it is given does not matter once it is enough. -/
theorem lowering_framed (c : Context) :
    (∀ required keys node,
      c.Frame (c.lowerSchema required keys node).2 ∧
      c.lowerSchema required keys node =
        c.run ((SchemaLowering.lowerAs c.scope.resolver c.scope.path required node).under keys) ∧
      ∀ exhausted fuel, SchemaLowering.rank c.scope.resolver (c.scope.path, node) < fuel →
        (InContext.lowerWithin exhausted fuel required keys node).on c =
          c.lowerSchema required keys node) ∧
    (∀ id node,
      c.Frame (c.lowerComponent id node).2 ∧
      c.lowerComponent id node =
        c.run (SchemaLowering.lowerComponent c.scope.resolver c.scope.path id node) ∧
      ∀ exhausted fuel, SchemaLowering.rank c.scope.resolver
          (c.scope.path ++ [Pointer.ofSchema id], node) < fuel →
        (InContext.componentWithin exhausted fuel id node).on c = c.lowerComponent id node) ∧
    ∀ required keys node, c.Frame (c.insideRequest fun c => c.lowerSchema required keys node).2 ∧
      (c.insideRequest fun c => c.lowerSchema required keys node).2.referenced = c.referenced := by
  have schema (c : Context) (required : Bool) (keys : List String) (node : SchemaNode) :
      c.lowerSchema required keys node =
        c.run ((SchemaLowering.lowerAs c.scope.resolver c.scope.path required node).under keys) :=
    Context.lowerSchema_run required keys node _ (Nat.lt_succ_self _)
  have component (id : String) (node : SchemaNode) : c.lowerComponent id node =
      c.run (SchemaLowering.lowerComponent c.scope.resolver c.scope.path id node) :=
    Context.lowerComponent_run id node _ (Nat.lt_succ_self _)
  refine ⟨fun required keys node => ⟨?_, schema c required keys node, ?_⟩,
    fun id node => ⟨?_, component id node, ?_⟩, fun required keys node => ?_⟩
  · rw [schema]
    exact Context.run_frame c _
  · intro exhausted fuel enough
    rw [schema]
    exact Context.lowerSchema_run required keys node exhausted enough
  · rw [component]
    exact Context.run_frame c _
  · intro exhausted fuel enough
    rw [component]
    exact Context.lowerComponent_run id node exhausted enough
  · refine Context.insideRequest_frame ?_
    rw [schema]
    exact Context.run_frame _ _

-- A lowering of one of two components that extend each other, with something found before.
def amidSiblings : Context where
  scope := ⟨⟨[("A", childOf "B"), ("B", childOf "A")], [], [], [], 100⟩, [Pointer.ofSchema "A"], [],
    none⟩
  discriminants := []
  findings := [⟨.malformedNode, [], "before"⟩]
  referenced := ["C"]
  inRequest := false

theorem amidSiblings_framed :
    (amidSiblings.lowerSchema true [] (childOf "B")).1.toOption.isNone = true ∧
      (amidSiblings.lowerSchema true [] (childOf "B")).2.scope.path = [Pointer.ofSchema "A"] ∧
      amidSiblings.findings <+: (amidSiblings.lowerSchema true [] (childOf "B")).2.findings ∧
      (amidSiblings.lowerSchema true [] (childOf "B")).2.referenced = ["A", "B", "C"] := by
  obtain ⟨framed, run, -⟩ := (lowering_framed amidSiblings).1 true [] (childOf "B")
  refine ⟨?_, congrArg Scope.path framed.scope, framed.findings, ?_⟩
  · rw [run]
    decide +kernel
  · rw [run]
    decide +kernel

end ApiLowering
