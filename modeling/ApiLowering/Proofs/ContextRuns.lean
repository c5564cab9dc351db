import ApiLowering.Proofs.ByteOrder
import ApiLowering.Proofs.History

/-!
Runs of a context: references opened and closed, findings recorded, components referred to, requests
with more of this inside them, whole schemas lowered, and look-ups, in any order, whatever comes of
them. Wherever a run has come to, the open references are distinct and within the limit, and the context
holds what was recorded and what was referred to from outside every request.
-/

set_option autoImplicit false

namespace ApiLowering

open Relation (ReflTransGen)
open SchemaLowering (Calls)

namespace Resolver

-- Open references as the limit allows them.
def Admits (r : Resolver) (path : List String) : Prop := path.Nodup ∧ path.length ≤ r.maxDepth

variable {r : Resolver} {path deeper : List String} {pointer : String}

theorem enter_room (entered : r.enter path pointer = .ok deeper) : path.length < r.maxDepth := by
  unfold enter at entered
  by_cases known : path.contains pointer
  · rw [if_pos known] at entered
    cases entered
  · rw [if_neg known] at entered
    by_cases full : r.maxDepth ≤ path.length
    · rw [if_pos full] at entered
      cases entered
    · exact Nat.lt_of_not_le full

theorem admits_enter (admits : r.Admits path) (entered : r.enter path pointer = .ok deeper) :
    r.Admits deeper := by
  have room := enter_room entered
  obtain ⟨fresh, rfl⟩ := enter_ok entered
  refine ⟨List.nodup_append.mpr ⟨admits.1, List.nodup_singleton pointer, ?_⟩, ?_⟩
  · rintro s before t last rfl
    rw [List.mem_singleton.mp last, ← List.contains_iff_mem, fresh] at before
    cases before
  · rw [List.length_append]
    exact room

theorem admits_exit (admits : r.Admits path) : r.Admits path.dropLast := by
  refine ⟨admits.1.sublist (List.dropLast_sublist path), ?_⟩
  rw [List.length_dropLast]
  exact Nat.le_trans (Nat.sub_le _ _) admits.2

theorem admits_calls {place last : Composition.Place} (admits : r.Admits place.1)
    (calls : ReflTransGen (Calls r) place last) : r.Admits last.1 := by
  induction calls with
  | refl => exact admits
  | tail _ call ih =>
    cases call with
    | component _ entered => exact admits_enter ih entered
    | part _ => exact ih

end Resolver

namespace Context

-- What can be asked of a context.
inductive Query where
  | schema (pointer : String)
  | parameter (pointer : String)
  | requestBody (pointer : String)
  | response (pointer : String)
  | inlineSchema (node : SchemaNode)
  | discriminants (pointer : String)
  | reserved (header : String)

inductive Answer where
  | done
  | refused (error : ResolveError)
  | lowered (outcome : Except LoweringError Ir.Schema)
  | schema (found : SchemaLookup)
  | parameter (found : Option Parameter)
  | requestBody (found : Option RequestBody)
  | response (found : Option Response)
  | inlineSchema (found : Option Schema)
  | discriminants (keys : List String)
  | reserved (known : Bool)
  | each (answers : List Answer)

def answer (c : Context) : Query → Answer
  | .schema pointer => .schema (c.scope.resolver.lookupSchema pointer)
  | .parameter pointer => .parameter (c.scope.resolver.parameter? pointer)
  | .requestBody pointer => .requestBody (c.scope.resolver.requestBody? pointer)
  | .response pointer => .response (c.scope.resolver.response? pointer)
  | .inlineSchema node => .inlineSchema (c.scope.resolver.dereference node)
  | .discriminants pointer => .discriminants (Discriminant.of c.discriminants pointer)
  | .reserved header => .reserved (c.scope.isReserved header)

inductive Action where
  | enter (pointer : String)
  | exit
  | mark (id : String)
  | record (finding : Ir.Finding)
  | look (query : Query)
  | lower (required : Bool) (keys : List String) (node : SchemaNode)
  | lowerComponent (id : String) (node : SchemaNode)
  | request (actions : List Action)

mutual
noncomputable def perform : Action → Context → Answer × Context
  | .enter pointer, c =>
    match c.enter pointer with
    | .ok opened => (.done, opened)
    | .error e => (.refused e, c)
  | .exit, c => (.done, c.exit)
  | .mark id, c => (.done, c.mark id)
  | .record finding, c => (.done, c.record finding)
  | .look query, c => (c.answer query, c)
  | .lower required keys node, c => (c.lowerSchema required keys node).map .lowered id
  | .lowerComponent id node, c => (c.lowerComponent id node).map .lowered fun after => after
  | .request actions, c => (c.insideRequest (performAll actions)).map .each id

noncomputable def performAll : List Action → Context → List Answer × Context
  | [], c => ([], c)
  | action :: rest, c =>
    let (first, after) := perform action c
    let (more, last) := performAll rest after
    (first :: more, last)
end

mutual
-- What an action records, in the order in which it does.
noncomputable def recorded : Action → Context → List Ir.Finding
  | .record finding, _ => [finding]
  | .lower required keys node, c =>
    ((SchemaLowering.lowerAs c.scope.resolver c.scope.path required node).under keys).findings
  | .lowerComponent id node, c =>
    (SchemaLowering.lowerComponent c.scope.resolver c.scope.path id node).findings
  | .request actions, c => recordedAll actions { c with inRequest := true }
  | _, _ => []

noncomputable def recordedAll : List Action → Context → List Ir.Finding
  | [], _ => []
  | action :: rest, c => recorded action c ++ recordedAll rest (perform action c).2
end

-- What an action marks as referred to; what is marked inside a request does not count.
noncomputable def marked : Action → Context → List String
  | .mark id, _ => [id]
  | .lower required keys node, c =>
    ((SchemaLowering.lowerAs c.scope.resolver c.scope.path required node).under keys).marks
  | .lowerComponent id node, c =>
    (SchemaLowering.lowerComponent c.scope.resolver c.scope.path id node).marks
  | _, _ => []

-- The contexts in the course of a run, between its actions and between those inside a request, each
-- with what was recorded and what was marked until then.
inductive Reaches : List Action → Context → List Ir.Finding → List String → Context → Prop where
  | here (actions : List Action) (c : Context) : Reaches actions c [] [] c
  | inside {actions rest : List Action} {c e : Context} {found : List Ir.Finding}
      {marks : List String} (within : Reaches actions { c with inRequest := true } found marks e) :
      Reaches (.request actions :: rest) c found [] e
  | onward {action : Action} {rest : List Action} {c e : Context} {found : List Ir.Finding}
      {marks : List String} (further : Reaches rest (perform action c).2 found marks e) :
      Reaches (action :: rest) c (recorded action c ++ found) (marked action c ++ marks) e

variable {c mid e : Context} {found more : List Ir.Finding} {marks others : List String}

-- How a context has moved on over the same components: the open references are as allowed if they
-- were, and what was recorded and what was marked has come in addition.
structure Moves (c e : Context) (found : List Ir.Finding) (marks : List String) : Prop where
  resolver : e.scope.resolver = c.scope.resolver
  path : c.scope.resolver.Admits c.scope.path → c.scope.resolver.Admits e.scope.path
  findings : e.findings = c.findings ++ found
  referenced : e.referenced = c.noted marks

theorem noted_nil (c : Context) : c.noted [] = c.referenced := by
  unfold noted
  split <;> rfl

theorem Moves.refl (c : Context) : Moves c c [] [] :=
  ⟨rfl, id, (List.append_nil _).symm, (noted_nil c).symm⟩

theorem Moves.trans (first : Moves c mid found marks) (same : mid.inRequest = c.inRequest)
    (second : Moves mid e more others) : Moves c e (found ++ more) (marks ++ others) where
  resolver := second.resolver.trans first.resolver
  path admits := first.resolver ▸ second.path (first.resolver.symm ▸ first.path admits)
  findings := by rw [second.findings, first.findings, List.append_assoc]
  referenced := by
    rw [second.referenced, noted_append]
    unfold noted
    rw [same, first.referenced, noted]

theorem Moves.run {α : Type} (c : Context) (report : Report α) :
    Moves c (c.run report).2 report.findings report.marks := by
  rw [run_eq]
  exact ⟨rfl, id, rfl, rfl⟩

theorem Moves.scoped {path : List String}
    (admits : c.scope.resolver.Admits c.scope.path → c.scope.resolver.Admits path) :
    Moves c { c with scope := { c.scope with path } } [] [] :=
  ⟨rfl, admits, (List.append_nil _).symm, (noted_nil c).symm⟩

-- Inside a request nothing is noted.
theorem Moves.request (within : Moves { c with inRequest := true } e found marks)
    (inRequest : Bool) : Moves c { e with inRequest } found [] :=
  ⟨within.resolver, within.path, within.findings, within.referenced.trans (noted_nil c).symm⟩

theorem enter_opened {pointer : String} (opened : c.enter pointer = .ok e) :
    ∃ path, c.scope.resolver.enter c.scope.path pointer = .ok path ∧
      e = { c with scope := { c.scope with path } } := by
  rw [enter] at opened
  cases entered : c.scope.resolver.enter c.scope.path pointer with
  | error e =>
    rw [entered] at opened
    cases opened
  | ok path =>
    rw [entered] at opened
    cases opened
    exact ⟨path, rfl, rfl⟩

theorem perform_inRequest (action : Action) (c : Context) :
    (perform action c).2.inRequest = c.inRequest := by
  cases action with
  | enter pointer =>
    rw [perform]
    cases opened : c.enter pointer with
    | ok after =>
      obtain ⟨path, -, rfl⟩ := enter_opened opened
      rfl
    | error e => rfl
  | mark id =>
    rw [perform, mark]
    split <;> rfl
  | lower required keys node =>
    rw [perform, lowerSchema_eq, run_eq]
    rfl
  | lowerComponent id node =>
    rw [perform, lowerComponent_eq, run_eq]
    rfl
  | exit | record _ | look _ | request _ => rfl

mutual
theorem perform_moves (action : Action) (c : Context) :
    Moves c (perform action c).2 (recorded action c) (marked action c) := by
  cases action with
  | enter pointer =>
    rw [perform]
    cases opened : c.enter pointer with
    | error e => exact .refl c
    | ok after =>
      obtain ⟨path, entered, rfl⟩ := enter_opened opened
      exact .scoped fun admits => Resolver.admits_enter admits entered
  | exit => exact .scoped Resolver.admits_exit
  | mark id =>
    have noted := Moves.run c (Report.mark id)
    rw [run, Report.mark, List.append_nil] at noted
    exact noted
  | record finding => exact .run c ⟨[finding], [], .ok ()⟩
  | look query => exact .refl c
  | lower required keys node =>
    rw [perform, lowerSchema_eq]
    exact .run c _
  | lowerComponent id node =>
    rw [perform, lowerComponent_eq]
    exact .run c _
  | request actions =>
    -- whatever was marked in there, none of it was noted
    obtain ⟨_, within⟩ := performAll_moves actions { c with inRequest := true }
    exact within.request c.inRequest

theorem performAll_moves (actions : List Action) (c : Context) :
    ∃ marks, Moves c (performAll actions c).2 (recordedAll actions c) marks := by
  cases actions with
  | nil => exact ⟨[], .refl c⟩
  | cons action rest =>
    obtain ⟨marks, later⟩ := performAll_moves rest (perform action c).2
    exact ⟨_, (perform_moves action c).trans (perform_inRequest action c) later⟩
end

theorem reaches_moves {actions : List Action} (reached : Reaches actions c found marks e) :
    Moves c e found marks := by
  induction reached with
  | here actions c => exact .refl c
  | @inside _ _ _ e _ _ _ ih => exact ih.request e.inRequest
  | onward _ ih => exact (perform_moves _ _).trans (perform_inRequest _ _) ih

/-- Wherever a run over a new context has come to, the open references are distinct and within the
limit; opening a reference may be refused, which opens nothing; and the context holds what was
recorded in the order in which it was, and what was marked outside every request. A schema lowered
there comes to no place with other than distinct references within the limit open. -/
theorem runs_sound {options : Options} {reserved : List String} {d : ApiDocument}
    {actions : List Action}
    (reached : Reaches actions (.ofDocument options reserved d) found marks e) :
    (e.scope.path.Nodup ∧ e.scope.path.length ≤ options.maxReferenceDepth) ∧
      (∀ pointer error after, perform (.enter pointer) e = (.refused error, after) → after = e) ∧
      e.findings = found ∧ e.referenced = sortedSet marks ∧ (∀ id, id ∈ e.referenced ↔ id ∈ marks) ∧
      ∀ node place, ReflTransGen (Calls e.scope.resolver) (e.scope.path, node) place →
        place.1.Nodup ∧ place.1.length ≤ options.maxReferenceDepth := by
  have moved := reaches_moves reached
  have limited {path : List String} (admits : (Resolver.ofDocument d options).Admits path) :
      path.Nodup ∧ path.length ≤ options.maxReferenceDepth :=
    Resolver.ofDocument_maxDepth d options ▸ admits
  have admits : (Resolver.ofDocument d options).Admits e.scope.path :=
    moved.path ⟨List.nodup_nil, Nat.zero_le _⟩
  have noted : e.referenced = sortedSet marks := moved.referenced
  refine ⟨limited admits, ?_, moved.findings, noted, fun id => ?_, fun node place calls => ?_⟩
  · intro pointer error after refused
    rw [perform] at refused
    cases opened : e.enter pointer with
    | ok _ =>
      rw [opened] at refused
      cases refused
    | error _ =>
      rw [opened] at refused
      cases refused
      rfl
  · rw [noted]
    exact ⟨mem_sortedSet, sortedSet_holds⟩
  · rw [moved.resolver] at calls
    exact limited (Resolver.admits_calls admits calls)

-- Two components that extend each other, under a limit that has room for one of them.
def cramped : Context :=
  .ofDocument { Options.default with maxReferenceDepth := 1 } []
    (.ofSchemas [("A", childOf "B"), ("B", childOf "A")])

-- A schema fails because of the limit, and so does a reference inside the request that follows.
def errand : List Action :=
  [.exit, .enter (Pointer.ofSchema "A"), .lower true ["part"] (childOf "B"),
    .request [.mark "A", .record ⟨.malformedNode, ["body"], "told"⟩,
      .enter (Pointer.ofSchema "B")]]

theorem errand_sound : ∃ e, Reaches errand cramped [⟨.malformedNode, ["body"], "told"⟩] ["B"] e ∧
    e.scope.path.length ≤ 1 ∧ e.findings = [⟨.malformedNode, ["body"], "told"⟩] ∧
    e.referenced = ["B"] := by
  obtain ⟨found, marks, e, reached, told, referred⟩ : ∃ found marks e,
      Reaches errand cramped found marks e ∧ found = [⟨.malformedNode, ["body"], "told"⟩] ∧
        marks = ["B"] :=
    ⟨_, _, _, .onward (.onward (.onward (.inside (.onward (.onward (.onward (.here [] _))))))),
      by decide +kernel, by decide +kernel⟩
  subst told referred
  obtain ⟨limited, -, findings, referenced, -, -⟩ := runs_sound reached
  exact ⟨e, reached, limited.2, findings, referenced⟩

end Context

end ApiLowering
