import ApiLowering.Proofs.Rules
import ApiLowering.Proofs.Pointer
import ApiLowering.Proofs.Walk
import Mathlib.Data.List.Chain
import Mathlib.Data.List.Nodup
import Mathlib.Data.List.Perm.Subperm

/-!
Failures of the lowering of schemas are genuine. The references that are open where a schema is
lowered lead from one component to the next, each at most once, and the schema stands in the last of
them. So a pointer that is entered again closes a cycle of components, and a path that is too deep is
no longer than there are components.
-/

set_option autoImplicit false

namespace ApiLowering

/-- What a component has to be resolved for: it is a reference itself, or it holds a composition with
a reference among its members. -/
def Needs (schemas : Entries SchemaNode) (node : SchemaNode) (id : String) : Prop :=
  ∃ target, Pointer.componentId? "schemas" target = some id ∧
    (∃ component, Entries.get? id schemas = some component) ∧
    (node = .reference target ∨ ∃ s ∈ node.inlineSchemas, SchemaNode.reference target ∈ s.allOf)

def Link (schemas : Entries SchemaNode) (a b : String) : Prop :=
  ∃ node, (a, node) ∈ schemas ∧ Needs schemas node b

/-- Ids of components, of which each one needs the next and the last one is the first. -/
structure Cycle (schemas : Entries SchemaNode) (ids : List String) : Prop where
  linked : ids.IsChain (Link schemas)
  long : 2 ≤ ids.length
  closed : ids.head? = ids.getLast?

/-- A failure that the component schemas account for. -/
def Genuine (schemas : Entries SchemaNode) (limit : Nat) : LoweringError → Prop
  | .resolve (.circular _ chain) =>
    ∃ ids, Cycle schemas ids ∧ ids.map Pointer.ofSchema <:+ chain
  | .resolve (.tooDeep _ _) => limit < schemas.length
  | _ => False

namespace SchemaLowering

open ApiLowering.Composition (Place Visits Refused)
open Report (Only)
open SchemaNode (PartOf)

-- Ids of components whose references are open.
structure Opened (schemas : Entries SchemaNode) (ids : List String) : Prop where
  distinct : ids.Nodup
  known : ids ⊆ schemas.map Prod.fst
  linked : ids.IsChain (Link schemas)

-- A place that stands, in the given way, in the component opened last: the invariant of the paths
-- on which schemas are lowered.
def Tracked (r : Resolver) (stands : SchemaNode → SchemaNode → Prop) (place : Place) : Prop :=
  ∃ ids, place.1 = ids.map Pointer.ofSchema ∧ Opened r.schemas ids ∧
    ∀ last ∈ ids.getLast?, ∃ component, (last, component) ∈ r.schemas ∧ stands component place.2

def Holds (component node : SchemaNode) : Prop :=
  ∀ s, node = .inline s → s ∈ component.inlineSchemas

def Composes (component node : SchemaNode) : Prop :=
  node = component ∨ ∃ s ∈ component.inlineSchemas, node = .inline s ∨ node ∈ s.allOf

variable {r : Resolver} {place last : Place} {component node : SchemaNode}

theorem composes_holds (composes : Composes component node) : Holds component node := by
  intro s inline
  subst inline
  rcases composes with same | ⟨t, here, same | listed⟩
  · subst same
    rw [SchemaNode.inlineSchemas]
    exact List.mem_cons_self
  · cases same
    exact here
  · refine SchemaNode.part_inlineSchemas here (.all listed) ?_
    rw [SchemaNode.inlineSchemas]
    exact List.mem_cons_self

theorem holds_composes {s : Schema} (holds : Holds component (.inline s)) :
    Composes component (.inline s) :=
  .inr ⟨s, holds s rfl, .inl rfl⟩

theorem part_holds {s : Schema} (holds : Holds component (.inline s)) (part : PartOf s node) :
    Holds component node := by
  intro t inline
  subst inline
  refine SchemaNode.part_inlineSchemas (holds s rfl) part ?_
  rw [SchemaNode.inlineSchemas]
  exact List.mem_cons_self

theorem Tracked.imp {weak strong : SchemaNode → SchemaNode → Prop} {path : List String}
    {one other : SchemaNode} (tracked : Tracked r strong (path, one))
    (imp : ∀ component, strong component one → weak component other) :
    Tracked r weak (path, other) := by
  obtain ⟨ids, same, opened, stands⟩ := tracked
  refine ⟨ids, same, opened, fun last ends => ?_⟩
  obtain ⟨component, listed, inside⟩ := stands last ends
  exact ⟨component, listed, imp component inside⟩

theorem tracked_start (stands : SchemaNode → SchemaNode → Prop) (node : SchemaNode) :
    Tracked r stands ([], node) :=
  ⟨[], rfl, ⟨List.nodup_nil, List.nil_subset _, List.isChain_nil⟩, fun _ ends => nomatch ends⟩

theorem needs_of_composes {target id : String} (composes : Composes component (.reference target))
    (leads : r.lookupSchema target = .found id node) : Needs r.schemas component id := by
  obtain ⟨named, present⟩ := lookup_found.mp leads
  refine ⟨target, named, ⟨node, present⟩, ?_⟩
  rcases composes with same | ⟨s, here, inline | listed⟩
  · exact .inl same.symm
  · cases inline
  · exact .inr ⟨s, here, listed⟩

theorem linked_concat {ids : List String} {target id : String}
    (linked : ids.IsChain (Link r.schemas))
    (stands : ∀ last ∈ ids.getLast?, ∃ component, (last, component) ∈ r.schemas ∧
      Composes component (.reference target))
    (leads : r.lookupSchema target = .found id node) :
    (ids ++ [id]).IsChain (Link r.schemas) := by
  refine List.isChain_append.mpr ⟨linked, List.isChain_singleton id, fun last ends next starts => ?_⟩
  cases starts
  obtain ⟨component, listed, composes⟩ := stands last ends
  exact ⟨component, listed, needs_of_composes composes leads⟩

theorem opened_concat {ids : List String} {id : String} (opened : Opened r.schemas ids)
    (listed : (id, node) ∈ r.schemas) (fresh : id ∉ ids) :
    (ids ++ [id]).Nodup ∧ ids ++ [id] ⊆ r.schemas.map Prod.fst := by
  constructor
  · refine List.nodup_append.mpr ⟨opened.distinct, List.nodup_singleton id, ?_⟩
    intro a before b added same
    cases List.mem_singleton.mp added
    exact fresh (same ▸ before)
  · intro a here
    rcases List.mem_append.mp here with before | added
    · exact opened.known before
    · cases List.mem_singleton.mp added
      exact List.mem_map.mpr ⟨(id, node), listed, rfl⟩

theorem enter_fresh {ids : List String} {id : String} {path deeper : List String}
    (same : path = ids.map Pointer.ofSchema)
    (entered : r.enter path (Pointer.ofSchema id) = .ok deeper) :
    id ∉ ids ∧ deeper = (ids ++ [id]).map Pointer.ofSchema := by
  obtain ⟨absent, rfl⟩ := Resolver.enter_ok entered
  subst same
  constructor
  · intro here
    have present : (ids.map Pointer.ofSchema).contains (Pointer.ofSchema id) = true :=
      List.contains_iff_mem.mpr (List.mem_map_of_mem here)
    rw [present] at absent
    cases absent
  · rw [List.map_append, List.map_singleton]

theorem tracked_visits (tracked : Tracked r Composes place) (visited : Visits r place last) :
    Tracked r Composes last := by
  induction visited with
  | here => exact tracked
  | component leads entered _ ih =>
    -- what was opened is distinct from all before, and is what the walk stands in from here on
    obtain ⟨ids, same, opened, stands⟩ := tracked
    obtain ⟨fresh, path⟩ := enter_fresh same entered
    have listed := Resolver.lookup_mem leads
    obtain ⟨distinct, known⟩ := opened_concat opened listed fresh
    refine ih ⟨_, path, ⟨distinct, known, linked_concat opened.linked stands leads⟩, ?_⟩
    intro last ends
    rw [List.getLast?_concat] at ends
    cases ends
    exact ⟨_, listed, .inl rfl⟩
  | member listed _ ih =>
    refine ih (tracked.imp fun component composes => ?_)
    exact .inr ⟨_, composes_holds composes _ rfl, .inr listed⟩

theorem cycle_of_repeat {ids : List String} {id : String} (here : id ∈ ids)
    (linked : (ids ++ [id]).IsChain (Link r.schemas)) :
    ∃ cycle, Cycle r.schemas cycle ∧ cycle <:+ ids ++ [id] := by
  obtain ⟨before, after, split⟩ := List.append_of_mem here
  have ends : id :: after ++ [id] <:+ ids ++ [id] := by
    rw [split, List.append_assoc]
    exact List.suffix_append before _
  refine ⟨id :: after ++ [id], ⟨linked.suffix ends, ?_, ?_⟩, ends⟩
  · simp only [List.length_append, List.length_cons, List.length_nil]
    omega
  · rw [List.getLast?_concat, List.cons_append, List.head?_cons]

theorem length_le_of_distinct {schemas : Entries SchemaNode} {ids : List String}
    (distinct : ids.Nodup) (known : ids ⊆ schemas.map Prod.fst) : ids.length ≤ schemas.length := by
  have less := (distinct.subperm known).length_le
  rw [List.length_map] at less
  exact less

theorem enter_error {path : List String} {pointer : String} {e : ResolveError}
    (failed : r.enter path pointer = .error e) :
    (pointer ∈ path ∧ e = .circular pointer (path ++ [pointer])) ∨
      (pointer ∉ path ∧ r.maxDepth ≤ path.length ∧ e = .tooDeep pointer r.maxDepth) := by
  by_cases repeated : path.contains pointer = true
  · rw [Resolver.enter, if_pos repeated] at failed
    exact .inl ⟨List.contains_iff_mem.mp repeated, (Except.error.inj failed).symm⟩
  · rw [Resolver.enter, if_neg repeated] at failed
    by_cases deep : r.maxDepth ≤ path.length
    · rw [if_pos deep] at failed
      have fresh : pointer ∉ path := fun here => repeated (List.contains_iff_mem.mpr here)
      exact .inr ⟨fresh, deep, (Except.error.inj failed).symm⟩
    · rw [if_neg deep] at failed
      cases failed

theorem refused_genuine {e : ResolveError} (tracked : Tracked r Composes place)
    (refused : Refused r place e) : Genuine r.schemas r.maxDepth (.resolve e) := by
  obtain ⟨path, target, id, node, visited, leads, failed⟩ := refused
  obtain ⟨ids, same, opened, stands⟩ := tracked_visits tracked visited
  dsimp only at same
  subst same
  rcases enter_error failed with ⟨repeated, same⟩ | ⟨fresh, deep, same⟩
  · subst same
    have here : id ∈ ids := by
      obtain ⟨other, listed, pointer⟩ := List.mem_map.mp repeated
      exact Pointer.ofSchema_injective pointer ▸ listed
    obtain ⟨cycle, closed, ends⟩ := cycle_of_repeat here (linked_concat opened.linked stands leads)
    refine ⟨cycle, closed, ?_⟩
    have pointers := ends.map Pointer.ofSchema
    rw [List.map_append] at pointers
    exact pointers
  · subst same
    have absent : id ∉ ids := fun here => fresh (List.mem_map_of_mem here)
    -- the open ids and the new one are different components, so there are more than the limit
    obtain ⟨distinct, known⟩ := opened_concat opened (Resolver.lookup_mem leads) absent
    have bound := length_le_of_distinct distinct known
    simp only [List.length_map, List.length_append, List.length_singleton] at deep bound
    change r.maxDepth < r.schemas.length
    omega

-- The places that a lowering comes to stand in the components that were opened for them.
theorem tracked_closed (r : Resolver) : Closed r (Tracked r Holds) where
  part tracked part := tracked.imp fun _ holds => part_holds holds part
  declared tracked visited listed := by
    have reached := tracked_visits (tracked.imp fun _ => holds_composes) visited
    exact reached.imp fun _ composes => part_holds (composes_holds composes) (.property listed)

theorem lower_genuine {path : List String} (tracked : Tracked r Holds (path, node)) :
    Only (Genuine r.schemas r.maxDepth) (lower r path node) :=
  lower_only (tracked_closed r) (fun place failed => refused_genuine
    (place.imp fun _ => holds_composes) (Composition.walkAll_failure failed)) path node tracked

theorem tracked_component {id : String} {deeper : List String} (listed : (id, node) ∈ r.schemas)
    (entered : r.enter [] (Pointer.ofSchema id) = .ok deeper) : Tracked r Holds (deeper, node) := by
  obtain ⟨fresh, path⟩ := enter_fresh List.map_nil.symm entered
  obtain ⟨distinct, known⟩ := opened_concat ⟨List.nodup_nil, List.nil_subset _, .nil⟩ listed fresh
  refine ⟨_, path, ⟨distinct, known, List.isChain_singleton id⟩, fun last ends => ?_⟩
  cases ends
  exact ⟨node, listed, composes_holds (.inl rfl)⟩

theorem lowerComponent_genuine {id : String} (listed : (id, node) ∈ r.schemas) :
    Only (Genuine r.schemas r.maxDepth) (lowerComponent r [] id node) := by
  have tolerant := (Report.Logic.ensuring_blind (Genuine r.schemas r.maxDepth)).tolerant
  refine lowerComponent_holds tolerant (fun e failed => ?_)
    (fun deeper entered => lower_genuine (tracked_component listed entered)) fun _ _ _ _ _ => trivial
  rcases enter_error failed with ⟨repeated, -⟩ | ⟨-, deep, same⟩
  · cases repeated
  · subst same
    have some := List.length_pos_of_mem listed
    rw [List.length_nil] at deep
    change r.maxDepth < r.schemas.length
    omega

end SchemaLowering

end ApiLowering
