import ApiLowering.Proofs.Failure
import ApiLowering.Proofs.Turns

/-!
The lowering of schemas comes to an end whatever the limit on nested references is. A path with room
for every component that is not on it is never too deep, and any amount of fuel that falls with every
call is more than a walk or a lowering uses.
-/

set_option autoImplicit false

namespace ApiLowering

open Relation (TransGen)

namespace Composition

-- A walk for which nested calls run out of fuel; then it answers with what it is given.
def walkWithin (r : Resolver) (stuck : Trail) : Nat → Walker
  | 0 => fun _ _ _ _ => stuck
  | fuel + 1 => walkTurn r (walkWithin r stuck fuel)

theorem walkWithin_walk {r : Resolver} {measure : Place → Nat}
    (falls : SchemaLowering.Falls r measure) (stuck : Trail) {fuel : Nat} {place : Place}
    (enough : measure place < fuel) : Walks r (walkWithin r stuck fuel) place := by
  induction fuel generalizing place with
  | zero => exact absurd enough (Nat.not_lt_zero _)
  | succ fuel ih =>
    intro breadcrumbs direct
    refine walkTurn_walk (fun next call => ih ?_) breadcrumbs direct
    have less := falls place next call
    omega

end Composition

namespace SchemaLowering

open ApiLowering.Composition (Place Visits Refused Trail Walks walk walkWithin)
open Report (Only)
open SchemaNode (PartOf)

def lowerWithin (r : Resolver) (stuck : Trail) (exhausted : Report Ir.Schema) : Nat → Lowerer
  | 0 => fun _ _ => exhausted
  | fuel + 1 => lowerTurn r (walkWithin r stuck fuel) (lowerWithin r stuck exhausted fuel)

def lowerComponentWithin (r : Resolver) (stuck : Trail) (exhausted : Report Ir.Schema) (fuel : Nat)
    (path : List String) (id : String) (node : SchemaNode) : Report Ir.Schema :=
  componentTurn r (lowerWithin r stuck exhausted fuel) path id node

variable {r : Resolver} {measure : Place → Nat} {place last : Place} {path : List String}
  {node : SchemaNode} {fuel : Nat}

theorem lowerWithin_lower (falls : Falls r measure) (stuck : Trail) (exhausted : Report Ir.Schema)
    (enough : measure place < fuel) : Lowers r (lowerWithin r stuck exhausted fuel) place := by
  induction fuel generalizing place with
  | zero => exact absurd enough (Nat.not_lt_zero _)
  | succ fuel ih =>
    -- one unit less is still enough for everything called from here, however far away
    have rest : ∀ next, TransGen (Calls r) place next → measure next < fuel := by
      intro next calls
      have less := falls_trans falls calls
      omega
    exact lowerTurn_lower (fun next calls => Composition.walkWithin_walk falls stuck (rest next calls))
      fun next calls => ih (rest next calls)

theorem lowerComponentWithin_lower (falls : Falls r measure) (stuck : Trail)
    (exhausted : Report Ir.Schema) {id : String}
    (enough : ∀ deeper, r.enter path (Pointer.ofSchema id) = .ok deeper →
      measure (deeper, node) < fuel) :
    lowerComponentWithin r stuck exhausted fuel path id node = lowerComponent r path id node :=
  componentTurn_lower fun deeper entered =>
    lowerWithin_lower falls stuck exhausted (enough deeper entered)

-- A place whose path can become as long as it can get at all.
def Roomy (r : Resolver) (place : Place) : Prop :=
  place.1.length + r.unvisited place.1 ≤ r.maxDepth

def InReach (e : LoweringError) : Prop := ∀ pointer depth, e ≠ .resolve (.tooDeep pointer depth)

theorem unvisited_pos {id : String} (listed : (id, node) ∈ r.schemas)
    (fresh : Pointer.ofSchema id ∉ path) : 0 < r.unvisited path := by
  refine List.countP_pos_iff.mpr ⟨(id, node), listed, ?_⟩
  simpa [Resolver.isUnvisited] using fresh

theorem roomy_visits (roomy : Roomy r place) (visited : Visits r place last) : Roomy r last := by
  obtain ⟨ids, follows⟩ := follows_of_calls (calls_of_visits visited)
  have bound := (follows_bounded follows).2.2
  have longer := congrArg List.length (follows_path follows)
  rw [List.length_append, List.length_map] at longer
  unfold Roomy at roomy ⊢
  omega

theorem enter_inReach {id : String} {e : ResolveError} (roomy : Roomy r (path, node))
    {component : SchemaNode} (listed : (id, component) ∈ r.schemas)
    (failed : r.enter path (Pointer.ofSchema id) = .error e) : InReach (.resolve e) := by
  rcases enter_error failed with ⟨-, same⟩ | ⟨fresh, deep, -⟩
  · subst same
    exact fun _ _ same => nomatch same
  · -- the component that is entered is unvisited, so there is room for it
    have unvisited := unvisited_pos listed fresh
    have room : path.length + r.unvisited path ≤ r.maxDepth := roomy
    omega

theorem refused_inReach {e : ResolveError} (roomy : Roomy r place) (refused : Refused r place e) :
    InReach (.resolve e) := by
  obtain ⟨path, target, id, component, visited, leads, failed⟩ := refused
  exact enter_inReach (roomy_visits roomy visited) (Resolver.lookup_mem leads) failed

theorem roomy_closed (r : Resolver) : Closed r (Roomy r) where
  part roomy _ := roomy
  declared roomy visited _ := by
    have reached := roomy_visits roomy visited
    exact reached

theorem roomy_entered {id : String} {deeper : List String} (listed : (id, node) ∈ r.schemas)
    (room : path.length + r.unvisited path ≤ r.maxDepth)
    (entered : r.enter path (Pointer.ofSchema id) = .ok deeper) : Roomy r (deeper, node) := by
  have less := Resolver.unvisited_enter listed entered
  obtain ⟨-, rfl⟩ := Resolver.enter_ok entered
  simp only [Roomy, List.length_append, List.length_singleton]
  omega

theorem lower_inReach (roomy : Roomy r (path, node)) : Only InReach (lower r path node) :=
  lower_only (roomy_closed r) (fun place failed => refused_inReach place
    (Composition.walkAll_failure failed)) path node roomy

theorem lowerComponent_inReach {id : String} (listed : (id, node) ∈ r.schemas)
    (room : path.length + r.unvisited path ≤ r.maxDepth) :
    Only InReach (lowerComponent r path id node) := by
  have roomy : Roomy r (path, node) := room
  exact lowerComponent_holds (Report.Logic.ensuring_blind InReach).tolerant
    (fun _ failed => enter_inReach roomy listed failed)
    (fun _ entered => lower_inReach (roomy_entered listed room entered)) fun _ _ _ _ _ => trivial

/-- Lowering and walking a schema terminate under every limit on nested references. Each call opens
a component that was not open, or stays on its path and comes to a smaller node, so calls are well
founded; a chain of them opens no more references than there are components off the path; a limit
that leaves room for those components is never reached; and any number that falls with every call,
as `rank` does, bounds the fuel that is used: with more than that, a walk or a lowering by fuel is
the one without, whatever it would answer if the fuel ran out. -/
theorem lowering_terminates (r : Resolver) :
    (∀ place next, Calls r place next →
      Prod.Lex (· < ·) (· < ·) (extent r next) (extent r place)) ∧
    (WellFounded fun next place => Calls r place next) ∧
    (∀ place ids last, Follows r place ids last →
      ids.Nodup ∧ (∀ id ∈ ids, Known r id ∧ Pointer.ofSchema id ∉ place.1) ∧
        ids.length + r.unvisited last.1 ≤ r.unvisited place.1) ∧
    (∀ path, path.length + r.unvisited path ≤ r.maxDepth → ∀ node pointer depth,
      (∀ breadcrumbs direct,
        (walk r path breadcrumbs direct node).failure ≠ some (.tooDeep pointer depth)) ∧
      (lower r path node).outcome ≠ .error (.resolve (.tooDeep pointer depth)) ∧
      ∀ id, (id, node) ∈ r.schemas →
        (lowerComponent r path id node).outcome ≠ .error (.resolve (.tooDeep pointer depth))) ∧
    Falls r (rank r) ∧
    ∀ measure, Falls r measure → ∀ stuck exhausted fuel path node,
      (measure (path, node) < fuel →
        (∀ breadcrumbs direct, walkWithin r stuck fuel path breadcrumbs direct node =
          walk r path breadcrumbs direct node) ∧
        lowerWithin r stuck exhausted fuel path node = lower r path node) ∧
      ∀ id, (∀ deeper, r.enter path (Pointer.ofSchema id) = .ok deeper →
          measure (deeper, node) < fuel) →
        lowerComponentWithin r stuck exhausted fuel path id node =
          lowerComponent r path id node := by
  refine ⟨fun _ _ => calls_less, calls_wellFounded r, fun _ _ _ => follows_bounded, ?_,
    rank_falls r, ?_⟩
  · intro path room node pointer depth
    refine ⟨fun breadcrumbs direct failed => ?_, fun failed => ?_, fun id listed failed => ?_⟩
    · have refused := Composition.walk_failure r path breadcrumbs direct node failed
      have roomy : Roomy r (path, node) := room
      exact refused_inReach roomy refused pointer depth rfl
    · exact Report.ensures_error (lower_inReach room) failed
        pointer depth rfl
    · exact Report.ensures_error (lowerComponent_inReach listed room) failed pointer depth rfl
  · intro measure falls stuck exhausted fuel path node
    refine ⟨fun enough => ⟨?_, ?_⟩, fun id enough => ?_⟩
    · exact Composition.walkWithin_walk falls stuck enough
    · exact lowerWithin_lower falls stuck exhausted enough
    · exact lowerComponentWithin_lower falls stuck exhausted enough

-- Two components that extend each other, under a limit far beyond them.
def siblings : Resolver :=
  ⟨[("A", childOf "B"), ("B", childOf "A")], [], [], [], 1000000⟩

theorem siblings_terminate :
    (Prod.Lex (· < ·) (· < ·)
        (extent siblings ([Pointer.ofSchema "A"], .reference (Pointer.ofSchema "B")))
        (extent siblings ([Pointer.ofSchema "A"], childOf "B"))) ∧
      1 + siblings.unvisited [Pointer.ofSchema "A", Pointer.ofSchema "B"] ≤
        siblings.unvisited [Pointer.ofSchema "A"] ∧
      (lowerComponent siblings [] "A" (childOf "B")).outcome ≠
        .error (.resolve (.tooDeep (Pointer.ofSchema "A") 1000000)) ∧
      lowerWithin siblings .empty (unknown Ir.Meta.blank) (rank siblings ([], childOf "B") + 1) []
        (childOf "B") = lower siblings [] (childOf "B") := by
  have call : Calls siblings ([Pointer.ofSchema "A"], childOf "B")
      ([Pointer.ofSchema "A"], .reference (Pointer.ofSchema "B")) := .part (.all List.mem_cons_self)
  have entered : siblings.enter [Pointer.ofSchema "A"] (Pointer.ofSchema "B") =
      .ok [Pointer.ofSchema "A", Pointer.ofSchema "B"] := by decide +kernel
  have opened : Follows siblings ([Pointer.ofSchema "A"], childOf "B") ["B"]
      ([Pointer.ofSchema "A", Pointer.ofSchema "B"], childOf "A") :=
    .part (.all List.mem_cons_self)
      (.component (lookup_found.mpr ⟨by decide +kernel, rfl⟩) entered .here)
  obtain ⟨falls, -, bounded, deep, ranked, fueled⟩ := lowering_terminates siblings
  refine ⟨falls _ _ call, (bounded _ _ _ opened).2.2, ?_, ?_⟩
  · exact (deep [] (by decide) (childOf "B") _ _).2.2 "A" List.mem_cons_self
  · exact ((fueled _ ranked _ _ _ [] (childOf "B")).1 (Nat.lt_succ_self _)).2

end SchemaLowering

end ApiLowering
