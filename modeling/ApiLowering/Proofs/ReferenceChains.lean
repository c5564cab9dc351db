import ApiLowering.Proofs.Closure
import ApiLowering.Proofs.Election
import ApiLowering.Proofs.Recursion

/-!
Chains of references under the limit on nested references. A chain leads from a pointer over one
component after the other to a node that stands inline. Looking up a parameter, a body or a response
spends one unit of the limit on each reference, and so does a walk over members that starts with
nothing open; following a schema spends one more, on the node at the end.
-/

set_option autoImplicit false

namespace ApiLowering

open ApiLowering.Composition (Step Trail walk walk_entered walk_refused)

-- The components of one kind. A node is a reference, something inline, or malformed.
structure ComponentKind (ν β : Type) where
  name : String
  entries : Resolver → Entries ν
  reference : String → ν
  inline : β → ν
  reference_injective : Function.Injective reference
  apart : ∀ target b, reference target ≠ inline b

namespace ComponentKind

def parameters : ComponentKind ParameterNode Parameter where
  name := "parameters"
  entries := Resolver.parameters
  reference := .reference
  inline := .inline
  reference_injective _ _ := ParameterNode.reference.inj
  apart _ _ := ParameterNode.noConfusion

def requestBodies : ComponentKind RequestBodyNode RequestBody where
  name := "requestBodies"
  entries := Resolver.requestBodies
  reference := .reference
  inline := .inline
  reference_injective _ _ := RequestBodyNode.reference.inj
  apart _ _ := RequestBodyNode.noConfusion

def responses : ComponentKind ResponseNode Response where
  name := "responses"
  entries := Resolver.responses
  reference := .reference
  inline := .inline
  reference_injective _ _ := ResponseNode.reference.inj
  apart _ _ := ResponseNode.noConfusion

def schemas : ComponentKind SchemaNode Schema where
  name := "schemas"
  entries := Resolver.schemas
  reference := .reference
  inline := .inline
  reference_injective _ _ := SchemaNode.reference.inj
  apart _ _ := SchemaNode.noConfusion

variable {ν β : Type}

-- The pointer leads to the component of that id, and the node is stored there.
def Leads (kind : ComponentKind ν β) (r : Resolver) (pointer id : String) (node : ν) : Prop :=
  Pointer.componentId? kind.name pointer = some id ∧ Entries.get? id (kind.entries r) = some node

-- As many references as there are ids lead from the pointer to what stands inline at the end.
inductive Chain (kind : ComponentKind ν β) (r : Resolver) : String → List String → β → Prop where
  | last {pointer id : String} {b : β} (leads : kind.Leads r pointer id (kind.inline b)) :
      Chain kind r pointer [id] b
  | next {pointer id target : String} {ids : List String} {b : β}
      (leads : kind.Leads r pointer id (kind.reference target))
      (further : Chain kind r target ids b) : Chain kind r pointer (id :: ids) b

-- Following references with some fuel, one unit for each of them.
structure Spends (kind : ComponentKind ν β) (r : Resolver) (within : Nat → String → Option β) :
    Prop where
  exhausted : ∀ pointer, within 0 pointer = none
  arrives : ∀ {pointer id b}, kind.Leads r pointer id (kind.inline b) →
    ∀ fuel, within (fuel + 1) pointer = some b
  onward : ∀ {pointer id target}, kind.Leads r pointer id (kind.reference target) →
    ∀ fuel, within (fuel + 1) pointer = within fuel target

variable {kind : ComponentKind ν β} {r : Resolver} {pointer : String} {ids : List String} {b : β}

theorem chain_spends {within : Nat → String → Option β} (spends : kind.Spends r within)
    (chain : kind.Chain r pointer ids b) (fuel : Nat) :
    within fuel pointer = if ids.length ≤ fuel then some b else none := by
  induction chain generalizing fuel with
  | last leads =>
    cases fuel with
    | zero => simp [spends.exhausted]
    | succ fuel => simp [spends.arrives leads]
  | next leads _ ih =>
    cases fuel with
    | zero => simp [spends.exhausted]
    | succ fuel => simp [spends.onward leads, ih]

theorem leads_same {other id : String} {node more : ν} (leads : kind.Leads r pointer id node)
    (again : kind.Leads r other id more) : more = node :=
  Option.some.inj (again.2.symm.trans leads.2)

theorem chain_unique {others : List String} {c : β} (chain : kind.Chain r pointer ids b)
    (again : kind.Chain r pointer others c) : others = ids := by
  induction chain generalizing others with
  | last leads =>
    cases again with
    | last alike =>
      cases alike.1.symm.trans leads.1
      rfl
    | next alike _ =>
      cases alike.1.symm.trans leads.1
      exact absurd (leads_same leads alike) (kind.apart _ _)
  | next leads _ ih =>
    cases again with
    | last alike =>
      cases alike.1.symm.trans leads.1
      exact absurd (leads_same alike leads) (kind.apart _ _)
    | next alike further =>
      cases alike.1.symm.trans leads.1
      have same := kind.reference_injective (leads_same leads alike)
      subst same
      rw [ih further]

-- What is stored under an id decides how a chain goes on from it.
theorem tail_unique {other id : String} {others : List String} {c : β}
    (chain : kind.Chain r pointer (id :: ids) b) (again : kind.Chain r other (id :: others) c) :
    others = ids := by
  cases chain with
  | last leads =>
    cases again with
    | last => rfl
    | next alike _ => exact absurd (leads_same leads alike) (kind.apart _ _)
  | next leads further =>
    cases again with
    | last alike => exact absurd (leads_same alike leads) (kind.apart _ _)
    | next alike furtherToo =>
      have same := kind.reference_injective (leads_same leads alike)
      subst same
      exact chain_unique further furtherToo

theorem chain_from {id : String} (chain : kind.Chain r pointer ids b) (here : id ∈ ids) :
    ∃ other rest, kind.Chain r other (id :: rest) b ∧ rest.length < ids.length := by
  induction chain with
  | last leads =>
    cases List.mem_singleton.mp here
    exact ⟨_, [], .last leads, Nat.one_pos⟩
  | @next pointer first target ids b leads further ih =>
    rcases List.mem_cons.mp here with same | later
    · subst same
      exact ⟨pointer, ids, .next leads further, Nat.lt_succ_self _⟩
    · obtain ⟨other, rest, chain, shorter⟩ := ih later
      exact ⟨other, rest, chain, Nat.lt_succ_of_lt shorter⟩

-- A chain that comes to an end passes no component twice: it would go on in the same way again.
theorem chain_distinct (chain : kind.Chain r pointer ids b) : ids.Nodup := by
  induction chain with
  | last => exact List.nodup_singleton _
  | @next pointer id target ids b leads further ih =>
    refine List.nodup_cons.mpr ⟨fun again => ?_, ih⟩
    obtain ⟨other, rest, chain, shorter⟩ := chain_from further again
    have same := tail_unique (.next leads further) chain
    subst same
    exact Nat.lt_irrefl _ shorter

theorem leads_bind {id : String} {node : ν} (leads : kind.Leads r pointer id node) :
    ((Pointer.componentId? kind.name pointer).bind fun id => Entries.get? id (kind.entries r)) =
      some node := by
  rw [leads.1, Option.bind_some, leads.2]

theorem parameters_spend (r : Resolver) : parameters.Spends r r.parameterWithin where
  exhausted _ := rfl
  arrives {pointer id b} leads fuel := by
    have stored : ((Pointer.componentId? "parameters" pointer).bind
        fun id => Entries.get? id r.parameters) = some (.inline b) := leads_bind leads
    rw [Resolver.parameterWithin, stored]
  onward {pointer id target} leads fuel := by
    have stored : ((Pointer.componentId? "parameters" pointer).bind
        fun id => Entries.get? id r.parameters) = some (.reference target) := leads_bind leads
    rw [Resolver.parameterWithin, stored]

theorem requestBodies_spend (r : Resolver) : requestBodies.Spends r r.requestBodyWithin where
  exhausted _ := rfl
  arrives {pointer id b} leads fuel := by
    have stored : ((Pointer.componentId? "requestBodies" pointer).bind
        fun id => Entries.get? id r.requestBodies) = some (.inline b) := leads_bind leads
    rw [Resolver.requestBodyWithin, stored]
  onward {pointer id target} leads fuel := by
    have stored : ((Pointer.componentId? "requestBodies" pointer).bind
        fun id => Entries.get? id r.requestBodies) = some (.reference target) := leads_bind leads
    rw [Resolver.requestBodyWithin, stored]

theorem responses_spend (r : Resolver) : responses.Spends r r.responseWithin where
  exhausted _ := rfl
  arrives {pointer id b} leads fuel := by
    have stored : ((Pointer.componentId? "responses" pointer).bind
        fun id => Entries.get? id r.responses) = some (.inline b) := leads_bind leads
    rw [Resolver.responseWithin, stored]
  onward {pointer id target} leads fuel := by
    have stored : ((Pointer.componentId? "responses" pointer).bind
        fun id => Entries.get? id r.responses) = some (.reference target) := leads_bind leads
    rw [Resolver.responseWithin, stored]

theorem lookup_schemas {id : String} {node : SchemaNode} (leads : schemas.Leads r pointer id node) :
    r.lookupSchema pointer = .found id node :=
  SchemaLowering.lookup_found.mpr leads

-- The node at which following a schema ends takes a unit of its own.
theorem schemas_spend (r : Resolver) :
    schemas.Spends r fun fuel pointer => r.inlineWithin (fuel + 1) (.reference pointer) where
  exhausted pointer := by
    rw [Resolver.inlineWithin]
    cases r.lookupSchema pointer <;> rfl
  arrives {pointer id b} leads fuel := by
    have found : r.lookupSchema pointer = .found id (.inline b) := lookup_schemas leads
    rw [Resolver.inlineWithin, found]
    rfl
  onward {pointer id target} leads fuel := by
    have found : r.lookupSchema pointer = .found id (.reference target) := lookup_schemas leads
    rw [Resolver.inlineWithin, found]

theorem dereference_chain {s : Schema} (chain : schemas.Chain r pointer ids s) :
    r.dereference (.reference pointer) = if ids.length < r.maxDepth then some s else none := by
  rw [Resolver.dereference]
  cases r.maxDepth with
  | zero => rfl
  | succ fuel =>
    have spent := chain_spends (schemas_spend r) chain fuel
    simp only [Nat.lt_succ_iff]
    exact spent

end ComponentKind

namespace Composition

variable {r : Resolver} {path keys ids : List String} {pointer : String} {direct : Bool} {s : Schema}

theorem enter_open {target : String} (fresh : target ∉ path) (room : path.length < r.maxDepth) :
    r.enter path target = .ok (path ++ [target]) := by
  rw [Resolver.enter, if_neg (by simpa using fresh), if_neg (Nat.not_le.mpr room)]

theorem enter_full {target : String} (fresh : target ∉ path) (full : path.length = r.maxDepth) :
    r.enter path target = .error (.tooDeep target r.maxDepth) := by
  rw [Resolver.enter, if_neg (by simpa using fresh), if_pos (Nat.le_of_eq full.symm)]

-- The references of a chain, of which only the first one can stand among the members themselves.
def followed (direct : Bool) : List String → List Step
  | [] => []
  | id :: ids => .follow id direct :: followed false ids

-- None of the components is open on the path.
def Closed (path ids : List String) : Prop := ∀ id ∈ ids, Pointer.ofSchema id ∉ path

theorem closed_next {id : String} (distinct : (id :: ids).Nodup) (closed : Closed path (id :: ids)) :
    Closed (path ++ [Pointer.ofSchema id]) ids := by
  intro other listed here
  rcases List.mem_append.mp here with before | last
  · exact closed other (List.mem_cons_of_mem _ listed) before
  · have same := Pointer.ofSchema_injective (List.mem_singleton.mp last)
    subst same
    exact (List.nodup_cons.mp distinct).1 listed

theorem walk_chain (chain : ComponentKind.schemas.Chain r pointer ids s) (closed : Closed path ids)
    (room : path.length + ids.length ≤ r.maxDepth) :
    walk r path keys direct (.reference pointer) =
      (Trail.mk (followed direct ids) none).next fun _ =>
        walk r (path ++ ids.map Pointer.ofSchema) keys false (.inline s) := by
  induction chain generalizing path direct with
  | @last pointer id s leads =>
    have entered := enter_open (closed id List.mem_cons_self) room
    rw [walk_entered (ComponentKind.lookup_schemas leads) entered]
    rfl
  | @next pointer id target ids s leads further ih =>
    have distinct := ComponentKind.chain_distinct (.next leads further)
    rw [List.length_cons] at room
    have entered : r.enter path (Pointer.ofSchema id) = .ok (path ++ [Pointer.ofSchema id]) :=
      enter_open (closed id List.mem_cons_self) (by omega)
    have rest : (path ++ [Pointer.ofSchema id]).length + ids.length ≤ r.maxDepth := by
      rw [List.length_append, List.length_singleton]
      omega
    have onward : walk r path keys direct (.reference pointer) =
        (Trail.one (.follow id direct)).next fun _ =>
          walk r (path ++ [Pointer.ofSchema id]) keys false (.reference target) :=
      walk_entered (ComponentKind.lookup_schemas leads) entered
    rw [onward, ih (closed_next distinct closed) rest]
    simp [Trail.next, Trail.one, followed]

theorem walk_chain_deep (chain : ComponentKind.schemas.Chain r pointer ids s)
    (closed : Closed path ids) (fits : path.length ≤ r.maxDepth)
    (deep : r.maxDepth < path.length + ids.length) :
    ∃ id ∈ ids, (walk r path keys direct (.reference pointer)).failure =
      some (.tooDeep (Pointer.ofSchema id) r.maxDepth) := by
  induction chain generalizing path direct with
  | @last pointer id s leads =>
    rw [List.length_singleton] at deep
    have full := enter_full (closed id List.mem_cons_self) (by omega : path.length = r.maxDepth)
    rw [walk_refused (ComponentKind.lookup_schemas leads) full]
    exact ⟨id, List.mem_cons_self, rfl⟩
  | @next pointer id target ids s leads further ih =>
    have distinct := ComponentKind.chain_distinct (.next leads further)
    by_cases full : path.length = r.maxDepth
    · have refused := enter_full (closed id List.mem_cons_self) full
      rw [walk_refused (ComponentKind.lookup_schemas leads) refused]
      exact ⟨id, List.mem_cons_self, rfl⟩
    · rw [List.length_cons] at deep
      have entered : r.enter path (Pointer.ofSchema id) = .ok (path ++ [Pointer.ofSchema id]) :=
        enter_open (closed id List.mem_cons_self) (by omega)
      have longer : (path ++ [Pointer.ofSchema id]).length = path.length + 1 := List.length_append
      have inside : ∃ other ∈ ids, (walk r (path ++ [Pointer.ofSchema id]) keys false
          (.reference target)).failure = some (.tooDeep (Pointer.ofSchema other) r.maxDepth) :=
        ih (closed_next distinct closed) (by omega) (by omega)
      obtain ⟨other, listed, failed⟩ := inside
      refine ⟨other, List.mem_cons_of_mem _ listed, ?_⟩
      rw [walk_entered (ComponentKind.lookup_schemas leads) entered]
      exact failed

-- A walk that comes to the limit does so at a reference that was not open when it started.
theorem tooDeep_fresh {node : SchemaNode} {limit : Nat}
    (failed : (walk r path keys direct node).failure = some (.tooDeep pointer limit)) :
    pointer ∉ path := by
  obtain ⟨reached, target, id, component, visited, -, refused⟩ :=
    walk_failure r path keys direct node failed
  obtain ⟨opened, follows⟩ :=
    SchemaLowering.follows_of_calls (SchemaLowering.calls_of_visits visited)
  have longer : reached = path ++ opened.map Pointer.ofSchema := SchemaLowering.follows_path follows
  rcases SchemaLowering.enter_error refused with ⟨-, same⟩ | ⟨fresh, -, same⟩
  · cases same
  · cases same
    intro here
    rw [longer] at fresh
    exact fresh (List.mem_append_left _ here)

end Composition

-- How long the chains of references are that a limit allows.
structure Resolver.LimitsChains (r : Resolver) (limit : Nat) : Prop where
  parameters : ∀ {pointer ids p}, ComponentKind.parameters.Chain r pointer ids p →
    r.parameter? pointer = if ids.length ≤ limit then some p else none
  requestBodies : ∀ {pointer ids b}, ComponentKind.requestBodies.Chain r pointer ids b →
    r.requestBody? pointer = if ids.length ≤ limit then some b else none
  responses : ∀ {pointer ids b}, ComponentKind.responses.Chain r pointer ids b →
    r.response? pointer = if ids.length ≤ limit then some b else none
  -- A walk with nothing open comes to the end of the chain, where its references are open.
  walks : ∀ {pointer ids s}, ComponentKind.schemas.Chain r pointer ids s → ids.length ≤ limit →
    ∀ keys direct, walk r [] keys direct (.reference pointer) =
      (Trail.mk (Composition.followed direct ids) none).next fun _ =>
        walk r (ids.map Pointer.ofSchema) keys false (.inline s)
  refuses : ∀ {pointer ids s}, ComponentKind.schemas.Chain r pointer ids s → ∀ keys direct,
    (∃ id ∈ ids, (walk r [] keys direct (.reference pointer)).failure =
      some (.tooDeep (Pointer.ofSchema id) limit)) ↔ limit < ids.length
  dereference : ∀ {pointer ids s}, ComponentKind.schemas.Chain r pointer ids s →
    r.dereference (.reference pointer) = if ids.length < limit then some s else none

/-- A chain of references that ends at an inline node is looked up, and walked from a path on which
nothing is open, exactly if it is no longer than the limit; one that is longer ends a walk at one of
its references. Following a schema stops one reference earlier: a chain as long as the limit leads
nowhere then. -/
theorem chains_limited (options : Options) (d : ApiDocument) :
    (Resolver.ofDocument d options).LimitsChains options.maxReferenceDepth := by
  have limit := Resolver.ofDocument_maxDepth d options
  generalize Resolver.ofDocument d options = r at limit ⊢
  rw [← limit]
  constructor
  case parameters =>
    intro pointer ids p chain
    exact ComponentKind.chain_spends (ComponentKind.parameters_spend r) chain r.maxDepth
  case requestBodies =>
    intro pointer ids b chain
    exact ComponentKind.chain_spends (ComponentKind.requestBodies_spend r) chain r.maxDepth
  case responses =>
    intro pointer ids b chain
    exact ComponentKind.chain_spends (ComponentKind.responses_spend r) chain r.maxDepth
  case walks =>
    intro pointer ids s chain short keys direct
    have closed : Composition.Closed [] ids := fun _ _ => List.not_mem_nil
    exact Composition.walk_chain chain closed (by simpa using short)
  case refuses =>
    intro pointer ids s chain keys direct
    have closed : Composition.Closed [] ids := fun _ _ => List.not_mem_nil
    constructor
    · rintro ⟨id, listed, failed⟩
      by_contra short
      rw [Composition.walk_chain chain closed (by simpa using short)] at failed
      -- what is refused at the end of the chain is none of its references, for those are open there
      rcases Composition.next_failure failed with before | after
      · cases before
      · exact Composition.tooDeep_fresh after (List.mem_map_of_mem listed)
    · intro long
      exact Composition.walk_chain_deep chain closed (Nat.zero_le _) (by simpa using long)
  case dereference =>
    intro pointer ids s chain
    exact ComponentKind.dereference_chain chain

-- Of each kind one component and another one that refers to it, which is as far as the limit goes.
def relays : ApiDocument :=
  { ApiDocument.record.blank with
    components := some { Components.record.blank with
      schemas := [("A", .reference "#/components/schemas/B"), ("B", .inline Keywords.empty)]
      parameters :=
        [("A", .reference "#/components/parameters/B"), ("B", .inline Parameter.record.blank)]
      requestBodies :=
        [("A", .reference "#/components/requestBodies/B"), ("B", .inline RequestBody.record.blank)]
      responses :=
        [("A", .reference "#/components/responses/B"), ("B", .inline Response.record.blank)] } }

def relaying : Resolver := .ofDocument relays { Options.default with maxReferenceDepth := 2 }

theorem relays_limited :
    ComponentKind.schemas.Chain relaying "#/components/schemas/A" ["A", "B"] Keywords.empty ∧
      relaying.parameter? "#/components/parameters/A" = some Parameter.record.blank ∧
      relaying.requestBody? "#/components/requestBodies/A" = some RequestBody.record.blank ∧
      relaying.response? "#/components/responses/A" = some Response.record.blank ∧
      (walk relaying [] [] true (.reference "#/components/schemas/A")).failure = none ∧
      relaying.dereference (.reference "#/components/schemas/A") = none := by
  have limits := chains_limited { Options.default with maxReferenceDepth := 2 } relays
  have schemas : ComponentKind.schemas.Chain relaying "#/components/schemas/A" ["A", "B"]
      Keywords.empty := .next ⟨by decide +kernel, rfl⟩ (.last ⟨by decide +kernel, rfl⟩)
  have parameters : ComponentKind.parameters.Chain relaying "#/components/parameters/A" ["A", "B"]
      Parameter.record.blank := .next ⟨by decide +kernel, rfl⟩ (.last ⟨by decide +kernel, rfl⟩)
  have bodies : ComponentKind.requestBodies.Chain relaying "#/components/requestBodies/A" ["A", "B"]
      RequestBody.record.blank := .next ⟨by decide +kernel, rfl⟩ (.last ⟨by decide +kernel, rfl⟩)
  have responses : ComponentKind.responses.Chain relaying "#/components/responses/A" ["A", "B"]
      Response.record.blank := .next ⟨by decide +kernel, rfl⟩ (.last ⟨by decide +kernel, rfl⟩)
  refine ⟨schemas, limits.parameters parameters, limits.requestBodies bodies,
    limits.responses responses, ?_, limits.dereference schemas⟩
  -- both references can be opened, and the node at the end has no members
  have walked : walk relaying [] [] true (.reference "#/components/schemas/A") = _ :=
    limits.walks schemas (Nat.le_refl 2) [] true
  rw [walked]
  decide +kernel

end ApiLowering
