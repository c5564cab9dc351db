import ApiLowering.Lowering.Composition
import ApiLowering.Proofs.Report

/-!
Findings that tell nothing about an operation as a whole. Two findings do: that a route was declared
before, and that a webhook has no payload. Nothing that a walk over a composition comes across is one
of them.
-/

set_option autoImplicit false

namespace ApiLowering

namespace Ir.Finding

def noPayload : String := "webhook has no JSON payload"

-- The route of an operation was declared before.
def tellsRepeat (f : Finding) : Bool := f.kind == .duplicateEndpoint

-- A webhook was left out.
def tellsNoPayload (f : Finding) : Bool := f.kind == .malformedNode && f.message == noPayload

/-- The finding tells nothing about an operation as a whole. -/
structure Ordinary (f : Finding) : Prop where
  repeats : f.tellsRepeat = false
  payload : f.tellsNoPayload = false

theorem ordinary_of_kind {kind : FindingKind}
    (plain : kind ≠ .duplicateEndpoint ∧ kind ≠ .malformedNode)
    (keys : List String) (message : String) : Ordinary ⟨kind, keys, message⟩ where
  repeats := beq_eq_false_iff_ne.mpr plain.1
  payload := by rw [tellsNoPayload, beq_eq_false_iff_ne.mpr plain.2, Bool.false_and]

theorem ordinary_of_message {message : String} (differs : message ≠ noPayload) (keys : List String) :
    Ordinary ⟨.malformedNode, keys, message⟩ where
  repeats := rfl
  payload := by rw [tellsNoPayload, beq_eq_false_iff_ne.mpr differs, Bool.and_false]

-- It is enough to look at the first character of a message that is put together.
theorem ordinary_of_lead {lead : String} {c : Char} (first : lead.toList.head? = some c)
    (other : c ≠ 'w') (rest : String) (keys : List String) :
    Ordinary ⟨.malformedNode, keys, lead ++ rest⟩ := by
  refine ordinary_of_message (fun same => other ?_) keys
  have whole : (lead ++ rest).toList.head? = some c := by
    rw [String.toList_append, List.head?_append, first]
    rfl
  rw [same] at whole
  exact (Option.some.inj whole).symm

theorem ordinary_under (keys : List String) {f : Finding} (plain : f.Ordinary) :
    (f.under keys).Ordinary := ⟨plain.repeats, plain.payload⟩

/-- The finding is ordinary, and it does not tell of an unknown extension. -/
structure Plain (f : Finding) : Prop where
  ordinary : f.Ordinary
  known : f.kind ≠ .unknownExtension

theorem plain_of_kind {kind : FindingKind}
    (plain : kind ≠ .duplicateEndpoint ∧ kind ≠ .malformedNode) (known : kind ≠ .unknownExtension)
    (keys : List String) (message : String) : Plain ⟨kind, keys, message⟩ :=
  ⟨ordinary_of_kind plain keys message, known⟩

theorem plain_of_malformed {keys : List String} {message : String}
    (plain : Ordinary ⟨.malformedNode, keys, message⟩) : Plain ⟨.malformedNode, keys, message⟩ where
  ordinary := plain
  known := show FindingKind.malformedNode ≠ .unknownExtension by decide

/-- What holds of all plain findings, and of a finding wherever it is recorded. -/
structure Absorbs (p : Finding → Prop) : Prop where
  plain : ∀ f, f.Plain → p f
  under : ∀ keys f, p f → p (f.under keys)

theorem ordinary_absorbs : Absorbs Ordinary :=
  ⟨fun _ => Plain.ordinary, fun keys _ => ordinary_under keys⟩

end Ir.Finding

open Ir.Finding (Absorbs Plain ordinary_absorbs ordinary_of_kind ordinary_of_lead ordinary_of_message
  plain_of_kind plain_of_malformed)

namespace Report

variable {α β : Type} {r : Report α} {p : Ir.Finding → Prop}

-- Whether the report fails or not, this holds of all its findings.
def Finds (p : Ir.Finding → Prop) (r : Report α) : Prop := ∀ f ∈ r.findings, p f

theorem Finds.mono {q : Ir.Finding → Prop} (finds : r.Finds p) (imp : ∀ f, p f → q f) : r.Finds q :=
  fun f here => imp f (finds f here)

theorem finds_silent (marks : List String) (outcome : Except LoweringError α) :
    Finds p ⟨[], marks, outcome⟩ := fun _ here => absurd here List.not_mem_nil

theorem finds_pure (a : α) : Finds p (pure a : Report α) := finds_silent _ _

theorem finds_one {f : Ir.Finding} (is : p f) (outcome : Except LoweringError α) :
    Finds p ⟨[f], [], outcome⟩ := List.forall_mem_singleton.mpr is

theorem finds_under {keys : List String} (each : r.Finds fun f => p (f.under keys)) :
    (r.under keys).Finds p := List.forall_mem_map.mpr each

theorem finds_bind {f : α → Report β} (first : r.Finds p)
    (next : ∀ a, r.outcome = .ok a → (f a).Finds p) : (r >>= f).Finds p := by
  cases outcome : r.outcome with
  | error e =>
    rw [bind_of_error outcome]
    exact first
  | ok a =>
    rw [bind_of_ok outcome]
    exact List.forall_mem_append.mpr ⟨first, next a outcome⟩

-- A finding, and something in place of what is missing.
theorem finds_noted {f : Ir.Finding} (is : p f) (a : α) :
    Finds p ((⟨[f], [], .ok ()⟩ : Report Unit) >>= fun _ => pure a) :=
  finds_bind (finds_one is _) fun _ _ => finds_pure a

-- The findings of a report along with its outcome.
def finding (absorbs : Absorbs p) : Logic where
  Holds good r := r.Finds p ∧ ∀ a, r.outcome = .ok a → good a
  holds_pure is := ⟨finds_pure _, fun _ done => pure_ok done ▸ is⟩
  holds_bind first next := by
    refine ⟨finds_bind first.1 fun a done => (next a done (first.2 a done)).1, fun b done => ?_⟩
    obtain ⟨a, outcome, rest⟩ := bind_ok done
    exact (next a outcome (first.2 a outcome)).2 b rest
  holds_under keys holds := ⟨finds_under (holds.1.mono (absorbs.under keys)), holds.2⟩

namespace Logic

-- The logic does not mind plain findings.
def Tolerant (logic : Logic) : Prop :=
  ∀ f : Ir.Finding, f.Plain → logic.Holds (fun _ => True) (⟨[f], [], .ok ()⟩ : Report Unit)

-- The logic does not look at findings.
def Blind (logic : Logic) : Prop :=
  ∀ f : Ir.Finding, logic.Holds (fun _ => True) (⟨[f], [], .ok ()⟩ : Report Unit)

variable {logic : Logic} {good : α → Prop} {better : β → Prop}

theorem Blind.tolerant (blind : logic.Blind) : logic.Tolerant := fun f _ => blind f

theorem ensuring_blind (bad : LoweringError → Prop) : (ensuring bad).Blind := fun _ => trivial

theorem certifying_blind (fine : String → Prop) : (certifying fine).Blind :=
  fun f => certified_findings [f] trivial

theorem finding_tolerant (absorbs : Absorbs p) : (finding absorbs).Tolerant :=
  fun f plain => ⟨finds_one (absorbs.plain f plain) _, fun _ _ => trivial⟩

theorem holds_findings {findings : List Ir.Finding}
    (each : ∀ f ∈ findings, logic.Holds (fun _ => True) (⟨[f], [], .ok ()⟩ : Report Unit)) :
    logic.Holds (fun _ => True) (⟨findings, [], .ok ()⟩ : Report Unit) := by
  induction findings with
  | nil => exact logic.holds_pure trivial
  | cons f rest ih =>
    have later := ih fun g here => each g (List.mem_cons_of_mem _ here)
    exact logic.holds_next (each f List.mem_cons_self) fun _ _ => later

theorem Tolerant.noted (tolerant : logic.Tolerant) {f : Ir.Finding} (plain : f.Plain) {a : α}
    (is : good a) : logic.Holds good ((⟨[f], [], .ok ()⟩ : Report Unit) >>= fun _ => pure a) :=
  logic.holds_next (tolerant f plain) fun _ _ => logic.holds_pure is

theorem Tolerant.missing (tolerant : logic.Tolerant) {f : Ir.Finding} (plain : f.Plain) :
    logic.Holds (fun found => ∀ b ∈ found, better b)
      ((⟨[f], [], .ok ()⟩ : Report Unit) >>= fun _ => pure none) :=
  logic.holds_next (tolerant f plain) fun _ _ => logic.holds_none

end Logic

/-- Whether the report fails or not, it records nothing about an operation as a whole. -/
def Ordinary (r : Report α) : Prop := ∀ f ∈ r.findings, f.Ordinary

theorem ordinary_pure (a : α) : Ordinary (pure a : Report α) := finds_pure a

theorem ordinary_under (keys : List String) (plain : r.Ordinary) : (r.under keys).Ordinary :=
  finds_under fun f here => Ir.Finding.ordinary_under keys (plain f here)

theorem ordinary_bind {f : α → Report β} (first : r.Ordinary) (next : ∀ a, (f a).Ordinary) :
    (r >>= f).Ordinary := finds_bind first fun a _ => next a

end Report

namespace Composition

open Ir.Finding (ordinary_of_lead plain_of_kind plain_of_malformed)

def Step.Plain : Step → Prop
  | .found finding => finding.Plain
  | _ => True

theorem ownSteps_plain {path breadcrumbs : List String} {s : Schema} {step : Step}
    (here : step ∈ ownSteps path breadcrumbs s) : step.Plain := by
  rcases List.mem_cons.mp here with rfl | there
  · trivial
  · obtain ⟨e, -, rfl⟩ := List.mem_map.mp there
    trivial

theorem shapeSteps_plain {breadcrumbs : List String} {s : Schema} {step : Step}
    (here : step ∈ shapeSteps breadcrumbs s) : step.Plain := by
  unfold shapeSteps at here
  split at here
  · cases List.mem_singleton.mp here
    rw [String.append_assoc]
    exact plain_of_malformed (ordinary_of_lead rfl (by decide) _ _)
  · cases here

theorem walk_plain (r : Resolver) (path breadcrumbs : List String) (direct : Bool)
    (node : SchemaNode) {step : Step} (here : step ∈ (walk r path breadcrumbs direct node).steps) :
    step.Plain := by
  induction path, node using walk_induction r generalizing breadcrumbs direct with
  | opened leads entered ih =>
    rw [walk_entered leads entered] at here
    rcases mem_next here with opening | inside
    · cases List.mem_singleton.mp opening
      trivial
    · exact ih breadcrumbs false inside
  | refused leads entered =>
    rw [walk_refused leads entered] at here
    cases List.mem_singleton.mp here
    trivial
  | missing leads =>
    rw [walk_missing leads] at here
    cases List.mem_singleton.mp here
    exact plain_of_kind (by decide) (by decide) _ _
  | unsupported leads =>
    rw [walk_unsupported leads] at here
    cases List.mem_singleton.mp here
    exact plain_of_kind (by decide) (by decide) _ _
  | inline ih =>
    rw [walk] at here
    rcases mem_next here with shape | inside
    · exact shapeSteps_plain shape
    · rcases mem_next inside with nested | own
      · obtain ⟨member, listed, keys, there⟩ := mem_walkMembers nested
        exact ih member listed keys false there
      · exact ownSteps_plain own
  | invalid =>
    rw [walk] at here
    cases List.mem_singleton.mp here
    rw [String.append_assoc]
    exact plain_of_malformed (ordinary_of_lead rfl (by decide) _ _)

theorem walkAll_plain {r : Resolver} {path : List String} {s : Schema} {step : Step}
    (here : step ∈ (walkAll r path s).steps) : step.Plain := by
  rcases mem_next here with nested | own
  · obtain ⟨member, -, keys, there⟩ := mem_walkMembers nested
    exact walk_plain r path keys true member there
  · exact ownSteps_plain own

end Composition

end ApiLowering
