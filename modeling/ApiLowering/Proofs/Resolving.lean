import ApiLowering.Lowering.Operation
import ApiLowering.Proofs.Ordinary

/-!
Nodes that stand for something else. A reference stands for what it leads to among the components. One
that leads nowhere and a node that is malformed stand for nothing, and that is found once.
-/

set_option autoImplicit false

namespace ApiLowering

open Ir.Finding (Plain ordinary_of_message plain_of_kind plain_of_malformed)

-- The finding that a reference dangles or that a node is malformed.
def Ir.Finding.isUnresolved (f : Ir.Finding) : Prop :=
  f.breadcrumbs = [] ∧ (f.kind = .danglingReference ∨ f.kind = .malformedNode)

namespace Report

variable {α β : Type} {stands : Option β} {r : Report (Option β)}

/-- The report of what a node stands for: nothing is found if it stands for something, and one thing is
found if it does not. -/
inductive Resolves : Option β → Report (Option β) → Prop where
  | found (b : β) : Resolves (some b) (.ok (some b))
  | lost {kind : Ir.FindingKind} {message : String}
      (is : kind = .danglingReference ∨ kind = .malformedNode) (plain : Plain ⟨kind, [], message⟩) :
      Resolves none (do
        find kind message
        return none)

theorem Resolves.outcome (resolves : Resolves stands r) : r.outcome = .ok stands := by
  cases resolves <;> rfl

theorem Resolves.report_eq {b : β} (resolves : Resolves (some b) r) : r = .ok (some b) := by
  cases resolves
  rfl

theorem Resolves.silent (resolves : Resolves stands r) (present : stands.isSome = true) :
    r.findings = [] := by
  cases resolves with
  | found b => rfl
  | lost => cases present

theorem Resolves.told (resolves : Resolves stands r) (missing : stands = none) :
    ∃ f, r.findings = [f] ∧ f.isUnresolved := by
  cases resolves with
  | found b => cases missing
  | lost is plain => exact ⟨_, rfl, rfl, is⟩

-- A logic that does not mind plain findings knows what a node stands for.
theorem Resolves.holds {logic : Logic} (tolerant : logic.Tolerant) (resolves : Resolves stands r) :
    logic.Holds (fun found => found = stands) r := by
  cases resolves with
  | found b => exact logic.holds_pure rfl
  | lost is plain => exact tolerant.noted plain rfl

theorem collect_resolves {f : α → Report (Option β)} {stands : α → Option β}
    (each : ∀ a, (f a).Resolves (stands a)) (items : List α) :
    (collect f items).outcome = .ok (items.filterMap stands) ∧
      List.Forall₂ (fun a found => (f a).findings = [found] ∧ found.isUnresolved)
        (items.filter fun a => (stands a).isNone) (collect f items).findings := by
  induction items with
  | nil => exact ⟨rfl, .nil⟩
  | cons a rest ih =>
    obtain ⟨outcome, later⟩ := ih
    have first := (each a).outcome
    rw [collect, bind_of_ok first, bind_of_ok outcome]
    cases found : stands a with
    | some b =>
      have silent := (each a).silent (by simp [found])
      refine ⟨by simp [found]; rfl, ?_⟩
      rw [silent, List.filter_cons_of_neg (by simp [found])]
      exact (List.append_nil _).symm ▸ later
    | none =>
      obtain ⟨told, only, is⟩ := (each a).told found
      refine ⟨by simp [found]; rfl, ?_⟩
      rw [only, List.filter_cons_of_pos (by simp [found])]
      exact .cons ⟨only, is⟩ ((List.append_nil _).symm ▸ later)

end Report

namespace Resolver

variable {r : Resolver} {fuel : Nat} {pointer : String}

theorem parameterWithin_mem {p : Parameter} (found : r.parameterWithin fuel pointer = some p) :
    ∃ id, (id, .inline p) ∈ r.parameters := by
  induction fuel generalizing pointer with
  | zero => cases found
  | succ fuel ih =>
    rw [parameterWithin] at found
    split at found
    · rename_i inline present
      cases found
      obtain ⟨id, _, stored⟩ := Option.bind_eq_some_iff.mp present
      exact ⟨id, get_mem stored⟩
    · exact ih found
    · cases found

theorem requestBodyWithin_mem {body : RequestBody}
    (found : r.requestBodyWithin fuel pointer = some body) :
    ∃ id, (id, .inline body) ∈ r.requestBodies := by
  induction fuel generalizing pointer with
  | zero => cases found
  | succ fuel ih =>
    rw [requestBodyWithin] at found
    split at found
    · rename_i inline present
      cases found
      obtain ⟨id, _, stored⟩ := Option.bind_eq_some_iff.mp present
      exact ⟨id, get_mem stored⟩
    · exact ih found
    · cases found

theorem responseWithin_mem {response : Response}
    (found : r.responseWithin fuel pointer = some response) :
    ∃ id, (id, .inline response) ∈ r.responses := by
  induction fuel generalizing pointer with
  | zero => cases found
  | succ fuel ih =>
    rw [responseWithin] at found
    split at found
    · rename_i inline present
      cases found
      obtain ⟨id, _, stored⟩ := Option.bind_eq_some_iff.mp present
      exact ⟨id, get_mem stored⟩
    · exact ih found
    · cases found

end Resolver

variable {r : Resolver}

namespace ParameterLowering

-- The parameter that a node stands for.
def parameter? (r : Resolver) : ParameterNode → Option Parameter
  | .inline p => some p
  | .reference target => r.parameter? target
  | .invalid _ => none

theorem resolve_resolves (r : Resolver) (node : ParameterNode) :
    (resolve r node).Resolves (parameter? r node) := by
  cases node with
  | inline p => exact .found p
  | invalid value => exact .lost (.inr rfl) (plain_of_malformed (ordinary_of_message (by decide) _))
  | reference target =>
    rw [resolve, parameter?]
    cases r.parameter? target with
    | some p => exact .found p
    | none => exact .lost (.inl rfl) (plain_of_kind (by decide) (by decide) _ _)

theorem parameter_mem {node : ParameterNode} {p : Parameter} (stands : parameter? r node = some p) :
    node = .inline p ∨ ∃ id, (id, .inline p) ∈ r.parameters := by
  cases node with
  | inline q => exact .inl (congrArg _ (Option.some.inj stands))
  | reference target => exact .inr (Resolver.parameterWithin_mem stands)
  | invalid value => cases stands

end ParameterLowering

namespace RequestLowering

-- The body that a node stands for.
def body? (r : Resolver) : RequestBodyNode → Option RequestBody
  | .inline body => some body
  | .reference target => r.requestBody? target
  | .invalid _ => none

theorem resolve_resolves (r : Resolver) (node : RequestBodyNode) :
    (resolve r node).Resolves (body? r node) := by
  cases node with
  | inline body => exact .found body
  | invalid value => exact .lost (.inr rfl) (plain_of_malformed (ordinary_of_message (by decide) _))
  | reference target =>
    rw [resolve, body?]
    cases r.requestBody? target with
    | some body => exact .found body
    | none => exact .lost (.inl rfl) (plain_of_kind (by decide) (by decide) _ _)

theorem body_mem {node : RequestBodyNode} {body : RequestBody} (stands : body? r node = some body) :
    node = .inline body ∨ ∃ id, (id, .inline body) ∈ r.requestBodies := by
  cases node with
  | inline own => exact .inl (congrArg _ (Option.some.inj stands))
  | reference target => exact .inr (Resolver.requestBodyWithin_mem stands)
  | invalid value => cases stands

end RequestLowering

namespace ResponseLowering

-- The response that a node stands for.
def response? (r : Resolver) : ResponseNode → Option Response
  | .inline response => some response
  | .reference target => r.response? target
  | .invalid _ => none

theorem resolve_resolves (r : Resolver) (node : ResponseNode) :
    (resolve r node).Resolves (response? r node) := by
  cases node with
  | inline response => exact .found response
  | invalid value => exact .lost (.inr rfl) (plain_of_malformed (ordinary_of_message (by decide) _))
  | reference target =>
    rw [resolve, response?]
    cases r.response? target with
    | some response => exact .found response
    | none => exact .lost (.inl rfl) (plain_of_kind (by decide) (by decide) _ _)

theorem response_mem {node : ResponseNode} {response : Response}
    (stands : response? r node = some response) :
    node = .inline response ∨ ∃ id, (id, .inline response) ∈ r.responses := by
  cases node with
  | inline own => exact .inl (congrArg _ (Option.some.inj stands))
  | reference target => exact .inr (Resolver.responseWithin_mem stands)
  | invalid value => cases stands

end ResponseLowering

end ApiLowering
