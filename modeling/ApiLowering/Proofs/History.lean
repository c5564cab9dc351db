import ApiLowering.Proofs.Alike
import ApiLowering.Proofs.Closure
import ApiLowering.Proofs.Framing

/-!
Lowering does not depend on history. What was found and noted before, the references that are open and
the breadcrumbs in front decide neither the schema nor what is found wrong with it; the breadcrumbs of
the findings start with those that were given.
-/

set_option autoImplicit false

namespace ApiLowering

namespace Ir.Finding

-- The same finding, told from under other breadcrumbs.
def SameUnder (keys others : List String) (a b : Finding) : Prop :=
  b.kind = a.kind ∧ b.message = a.message ∧
    ∃ further, a.breadcrumbs = keys ++ further ∧ b.breadcrumbs = others ++ further

theorem sameUnder_under (keys others : List String) (findings : List Finding) :
    List.Forall₂ (SameUnder keys others) (findings.map (under keys)) (findings.map (under others)) := by
  refine List.forall₂_map_left_iff.mpr (List.forall₂_map_right_iff.mpr ?_)
  exact List.forall₂_same.mpr fun f _ => ⟨rfl, rfl, f.breadcrumbs, rfl, rfl⟩

end Ir.Finding

namespace SchemaLowering

theorem lowerAs_agree (r : Resolver) (path other : List String) (required : Bool)
    (node : SchemaNode) :
    Report.Agree (lowerAs r path required node) (lowerAs r other required node) :=
  Report.agree_bind (lower_agree r path other node) fun _ => Report.agree_refl _

end SchemaLowering

variable {c e : Context} {required : Bool} {keys others : List String} {node : SchemaNode}
  {schema again : Ir.Schema}

theorem Context.lowerSchema_eq (c : Context) (required : Bool) (keys : List String)
    (node : SchemaNode) : c.lowerSchema required keys node =
      c.run ((SchemaLowering.lowerAs c.scope.resolver c.scope.path required node).under keys) :=
  c.lowerSchema_run required keys node _ (Nat.lt_succ_self _)

theorem Context.lowerComponent_eq (c : Context) (id : String) (node : SchemaNode) :
    c.lowerComponent id node =
      c.run (SchemaLowering.lowerComponent c.scope.resolver c.scope.path id node) :=
  c.lowerComponent_run id node _ (Nat.lt_succ_self _)

/-- Two contexts over the same components, whatever happened in them before, lower a schema to the same
representation if both of them succeed. Both find the same wrong with it, each under the breadcrumbs
that it was given. -/
theorem lowering_historyless (same : e.scope.resolver = c.scope.resolver)
    (done : (c.lowerSchema required keys node).1 = .ok schema)
    (also : (e.lowerSchema required others node).1 = .ok again) :
    again = schema ∧ ∃ found recorded,
      (c.lowerSchema required keys node).2.findings = c.findings ++ found ∧
      (e.lowerSchema required others node).2.findings = e.findings ++ recorded ∧
      List.Forall₂ (Ir.Finding.SameUnder keys others) found recorded := by
  rw [Context.lowerSchema_eq, Context.run_eq] at done also ⊢
  rw [Context.lowerSchema_eq, Context.run_eq]
  rw [same] at also ⊢
  -- the reports of the two lowerings are the same, open references and all
  have agree := SchemaLowering.lowerAs_agree c.scope.resolver c.scope.path e.scope.path required node
    schema again done also
  rw [← agree] at also ⊢
  refine ⟨Except.ok.inj (also.symm.trans done), _, _, rfl, rfl, ?_⟩
  exact Ir.Finding.sameUnder_under keys others _

-- An object with two parts that cannot be lowered.
def brokenPair : SchemaNode :=
  .ofProperties [("kind", .reference (Pointer.ofSchema "Missing")), ("size", .invalid (.bool true))]

-- Nothing was lowered before, and a request body is being lowered in the course of a component.
def untouched : Context where
  scope := ⟨⟨[("A", .ofType .string)], [], [], [], 100⟩, [], [], none⟩
  discriminants := []
  findings := []
  referenced := []
  inRequest := false

def midway : Context :=
  { untouched with
    scope := { untouched.scope with path := [Pointer.ofSchema "A"] }
    findings := [⟨.malformedNode, ["A"], "before"⟩]
    referenced := ["A"]
    inRequest := true }

theorem brokenPair_historyless :
    ∃ schema found recorded,
      (untouched.lowerSchema true [] brokenPair).1 = .ok schema ∧
      (midway.lowerSchema true ["A", "allOf", "0"] brokenPair).1 = .ok schema ∧
      (untouched.lowerSchema true [] brokenPair).2.findings = found ∧ found.length = 2 ∧
      (midway.lowerSchema true ["A", "allOf", "0"] brokenPair).2.findings =
        midway.findings ++ recorded ∧
      List.Forall₂ (Ir.Finding.SameUnder [] ["A", "allOf", "0"]) found recorded := by
  have lowered (c : Context) (keys : List String) (some : (SchemaLowering.lowerAs c.scope.resolver
      c.scope.path true brokenPair).outcome.toOption.isSome = true) :
      ∃ schema, (c.lowerSchema true keys brokenPair).1 = .ok schema := by
    rw [Context.lowerSchema_eq, Context.run_eq]
    dsimp only [Report.under]
    cases outcome : (SchemaLowering.lowerAs c.scope.resolver c.scope.path true brokenPair).outcome with
    | error e =>
      rw [outcome] at some
      cases some
    | ok schema => exact ⟨schema, rfl⟩
  obtain ⟨schema, done⟩ := lowered untouched [] (by decide +kernel)
  obtain ⟨again, also⟩ := lowered midway ["A", "allOf", "0"] (by decide +kernel)
  have same : midway.scope.resolver = untouched.scope.resolver := rfl
  obtain ⟨equal, found, recorded, before, after, pairwise⟩ := lowering_historyless same done also
  have two : (untouched.lowerSchema true [] brokenPair).2.findings.length = 2 := by
    rw [Context.lowerSchema_eq, Context.run_eq]
    decide +kernel
  rw [before] at two
  exact ⟨schema, found, recorded, done, equal ▸ also, before, two, after, pairwise⟩

end ApiLowering
