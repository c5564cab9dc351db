import ApiLowering.Proofs.Genuine
import Mathlib.Logic.Relation
import Mathlib.Order.RelClasses

/-!
The recursion of the lowering of schemas. A place calls for the component that its reference opens,
or for the parts of its inline schema. A call opens a component that was not open before or stays on
its path and comes to a smaller node, so the calls are well founded, and no chain of them opens more
references than there are components off the path on which it starts.
-/

set_option autoImplicit false

namespace ApiLowering

theorem Resolver.total_one {α : Type} (counts : α → Bool) (items : List α) :
    total counts (fun _ => 1) items = items.countP counts := by
  induction items with
  | nil => rfl
  | cons a rest ih =>
    by_cases counted : counts a = true
    · rw [total, if_pos counted, List.countP_cons_of_pos counted, ih, Nat.add_comm]
    · rw [total, if_neg counted, List.countP_cons_of_neg counted, ih]

-- The number of components whose references are not open on a path.
def Resolver.unvisited (r : Resolver) (path : List String) : Nat :=
  r.schemas.countP (isUnvisited path)

theorem Resolver.unvisited_enter {r : Resolver} {path deeper : List String} {id : String}
    {node : SchemaNode} (listed : (id, node) ∈ r.schemas)
    (entered : r.enter path (Pointer.ofSchema id) = .ok deeper) :
    r.unvisited deeper + 1 ≤ r.unvisited path := by
  obtain ⟨fresh, rfl⟩ := enter_ok entered
  rw [unvisited, unvisited, ← total_one, ← total_one]
  refine total_add_le (fun _ => 1) (fun e outside => ?_) listed ?_ ?_
  · simp only [isUnvisited, Bool.not_eq_true', List.contains_eq_mem, List.mem_append,
      decide_eq_false_iff_not, not_or] at outside ⊢
    exact outside.1
  · simp only [isUnvisited, fresh, Bool.not_false]
  · simp [isUnvisited]

namespace SchemaLowering

open ApiLowering.Composition (Place Visits)
open Relation (ReflTransGen TransGen)
open SchemaNode (PartOf)

/-- The places that a place is lowered or walked by way of. -/
inductive Calls (r : Resolver) : Place → Place → Prop where
  | component {path deeper : List String} {target id : String} {node : SchemaNode}
      (leads : r.lookupSchema target = .found id node)
      (entered : r.enter path (Pointer.ofSchema id) = .ok deeper) :
      Calls r (path, .reference target) (deeper, node)
  | part {path : List String} {s : Schema} {node : SchemaNode} (part : PartOf s node) :
      Calls r (path, .inline s) (path, node)

/-- A chain of calls, with the ids of the components that it opens one after the other. -/
inductive Follows (r : Resolver) : Place → List String → Place → Prop where
  | here {place : Place} : Follows r place [] place
  | component {path deeper ids : List String} {target id : String} {node : SchemaNode} {last : Place}
      (leads : r.lookupSchema target = .found id node)
      (entered : r.enter path (Pointer.ofSchema id) = .ok deeper)
      (further : Follows r (deeper, node) ids last) :
      Follows r (path, .reference target) (id :: ids) last
  | part {path ids : List String} {s : Schema} {node : SchemaNode} {last : Place}
      (part : PartOf s node) (further : Follows r (path, node) ids last) :
      Follows r (path, .inline s) ids last

/-- How much is left at a place: the components not yet open, then the size of the node. -/
noncomputable def extent (r : Resolver) (place : Place) : Nat × Nat :=
  (r.unvisited place.1, sizeOf place.2)

def Falls (r : Resolver) (rank : Place → Nat) : Prop := ∀ p q, Calls r p q → rank q < rank p

variable {r : Resolver} {place next last : Place} {path : List String} {s t : Schema}
  {node : SchemaNode}

theorem calls_less (call : Calls r place next) :
    Prod.Lex (· < ·) (· < ·) (extent r next) (extent r place) := by
  cases call with
  | component leads entered =>
    exact Prod.Lex.left _ _ (Resolver.unvisited_enter (Resolver.lookup_mem leads) entered)
  | part part =>
    refine Prod.Lex.right _ ?_
    have less := part_lt part
    simp only [SchemaNode.inline.sizeOf_spec]
    omega

theorem calls_wellFounded (r : Resolver) : WellFounded fun next place => Calls r place next :=
  Subrelation.wf calls_less
    (InvImage.wf (extent r) (Prod.lex Nat.lt_wfRel Nat.lt_wfRel).wf)

noncomputable def largest (r : Resolver) : Nat := (r.schemas.map fun e => sizeOf e.2).foldr max 0

theorem size_le_largest {e : String × SchemaNode} (listed : e ∈ r.schemas) :
    sizeOf e.2 ≤ largest r := by
  unfold largest
  generalize r.schemas = components at listed ⊢
  induction components with
  | nil => cases listed
  | cons first rest ih =>
    rw [List.map_cons, List.foldr_cons]
    rcases List.mem_cons.mp listed with same | later
    · subst same
      exact Nat.le_max_left _ _
    · exact Nat.le_trans (ih later) (Nat.le_max_right _ _)

/-- The extent of a place as one number. -/
noncomputable def rank (r : Resolver) (place : Place) : Nat :=
  r.unvisited place.1 * (largest r + 1) + sizeOf place.2

theorem rank_falls (r : Resolver) : Falls r (rank r) := by
  intro place next call
  cases call with
  | @component path deeper target id node leads entered =>
    have listed := Resolver.lookup_mem leads
    have opened := Resolver.unvisited_enter listed entered
    have bound : sizeOf node ≤ largest r := size_le_largest listed
    -- what the component weighs is paid for by the one that is no longer unvisited
    have paid := Nat.mul_le_mul_right (largest r + 1) opened
    rw [Nat.add_mul, Nat.one_mul] at paid
    simp only [rank]
    omega
  | part part =>
    have less := part_lt part
    simp only [rank, SchemaNode.inline.sizeOf_spec]
    omega

theorem falls_trans {measure : Place → Nat} (falls : Falls r measure)
    (calls : TransGen (Calls r) place next) : measure next < measure place := by
  induction calls with
  | single call => exact falls _ _ call
  | tail _ call ih => exact Nat.lt_trans (falls _ _ call) ih

theorem calls_of_visits (visited : Visits r place last) : ReflTransGen (Calls r) place last := by
  induction visited with
  | here => exact .refl
  | component leads entered _ ih => exact .head (.component leads entered) ih
  | member listed _ ih => exact .head (.part (.all listed)) ih

theorem calls_declared {key : String} (visited : Visits r place (path, .inline t))
    (listed : (key, node) ∈ t.properties) : TransGen (Calls r) place (path, node) :=
  .tail' (calls_of_visits visited) (.part (.property listed))

theorem follows_of_calls (calls : ReflTransGen (Calls r) place last) :
    ∃ ids, Follows r place ids last := by
  induction calls using ReflTransGen.head_induction_on with
  | refl => exact ⟨[], .here⟩
  | head call _ ih =>
    obtain ⟨ids, further⟩ := ih
    cases call with
    | component leads entered => exact ⟨_ :: ids, .component leads entered further⟩
    | part part => exact ⟨ids, .part part further⟩

theorem follows_path {ids : List String} (follows : Follows r place ids last) :
    last.1 = place.1 ++ ids.map Pointer.ofSchema := by
  induction follows with
  | here => exact (List.append_nil _).symm
  | component _ entered _ ih =>
    rw [ih, (Resolver.enter_ok entered).2, List.map_cons, List.append_assoc]
    rfl
  | part _ _ ih => exact ih

/-- The components opened along a chain of calls are all different and were not open before, so that
there are no more of them than components off the path. -/
theorem follows_bounded {ids : List String} (follows : Follows r place ids last) :
    ids.Nodup ∧ (∀ id ∈ ids, Known r id ∧ Pointer.ofSchema id ∉ place.1) ∧
      ids.length + r.unvisited last.1 ≤ r.unvisited place.1 := by
  induction follows with
  | here =>
    refine ⟨List.nodup_nil, fun _ opened => absurd opened List.not_mem_nil, ?_⟩
    rw [List.length_nil, Nat.zero_add]
  | @component path deeper ids target id node last leads entered _ ih =>
    obtain ⟨distinct, off, bound⟩ := ih
    have less := Resolver.unvisited_enter (Resolver.lookup_mem leads) entered
    obtain ⟨fresh, rfl⟩ := Resolver.enter_ok entered
    have absent : Pointer.ofSchema id ∉ path := by simpa using fresh
    refine ⟨List.nodup_cons.mpr ⟨fun again => ?_, distinct⟩, ?_, ?_⟩
    · exact (off id again).2 (List.mem_append_right _ List.mem_cons_self)
    · intro other opened
      rcases List.mem_cons.mp opened with same | later
      · subst same
        exact ⟨⟨node, (lookup_found.mp leads).2⟩, absent⟩
      · obtain ⟨known, outside⟩ := off other later
        exact ⟨known, fun open_ => outside (List.mem_append_left _ open_)⟩
    · simp only [List.length_cons] at bound ⊢
      omega
  | part _ _ ih => exact ih

end SchemaLowering

end ApiLowering
