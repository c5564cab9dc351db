import ApiLowering.Proofs.Operations

/-!
Which findings are recorded where. What is found when a schema is lowered is found in one of the nodes
that are lowered for it, or it is plain. Two findings tell what became of an operation as a whole: that
its route was declared before, and that it is a webhook without a payload. The lowering of everything
else, of schemas, parameters, requests, responses, variables, servers and tags, records neither of them.
-/

set_option autoImplicit false

namespace ApiLowering

open Ir.Finding (Absorbs ordinary_absorbs ordinary_of_kind ordinary_of_lead ordinary_of_message
  plain_of_malformed)
open Report (Finds finds_bind finds_noted finds_silent)
open Report.Logic (finding_tolerant)

theorem Extension.checkUnknown_ordinary (extensions : Entries Json) :
    (checkUnknown extensions).Ordinary := by
  intro f here
  obtain ⟨key, -, rfl⟩ := List.mem_map.mp here
  exact ordinary_of_kind (by decide) _ _

namespace SchemaLowering

variable {r : Resolver} {path : List String}

theorem finding_rules {p : Ir.Finding → Prop} (absorbs : Absorbs p) :
    Rules (Report.finding absorbs) r (fun _ => True) (fun _ => True) (fun _ => True) :=
  indifferent_rules (finding_tolerant absorbs)
    (fun _ => ⟨finds_silent _ _, fun _ _ => trivial⟩)
    fun _ _ => ⟨finds_silent _ _, fun _ _ => trivial⟩

/-- What holds of plain findings and of unknown extensions of the schema itself, and of a schema if it
holds of a node that is lowered for it, holds of all that is found when a node is lowered. -/
theorem lower_finds {p : SchemaNode → Ir.Finding → Prop} (absorbs : ∀ node, Absorbs (p node))
    (own : ∀ s : Schema, (Extension.checkUnknown s.extensions).Finds (p (.inline s)))
    (further : ∀ s node, Consults r s node → ∀ f, p node f → p (.inline s) f) (path : List String)
    (node : SchemaNode) : (lower r path node).Finds (p node) := by
  induction path, node using lower_induction r with
  | reference =>
    rw [lower]
    exact (lowerReference_holds (finding_rules (absorbs _)) _).1
  | @inline path s parts declared =>
    rw [lower, lowerInline_eq]
    refine finds_bind (own s) fun _ _ => ?_
    -- a node that is lowered for the schema counts for the schema as well
    refine (lowerForm_holds (finding_rules (absorbs _)) trivial ?_ ?_).1
    · exact fun node consults part =>
        ⟨(parts node part).mono (further s node consults), fun _ _ => trivial⟩
    · exact fun reached t key node consults visited listed =>
        ⟨(declared reached t key node visited listed).mono (further s node consults),
          fun _ _ => trivial⟩
  | invalid =>
    rw [lower]
    refine finds_noted ((absorbs _).plain _ ?_) _
    exact plain_of_malformed (ordinary_of_lead rfl (by decide) _ _)

/-- The lowering of a schema records nothing about an operation as a whole. -/
theorem lower_ordinary (r : Resolver) (path : List String) (node : SchemaNode) :
    (lower r path node).Ordinary :=
  lower_finds (fun _ => ordinary_absorbs) (fun _ => Extension.checkUnknown_ordinary _)
    (fun _ _ _ _ => id) path node

theorem lowerOption_ordinary (required : Bool) (node : Option SchemaNode) :
    (lowerOption r path required node).Ordinary := by
  cases node with
  | none => exact Report.ordinary_pure _
  | some node => exact finds_bind (lower_ordinary r path node) fun _ _ => Report.ordinary_pure _

end SchemaLowering

theorem ordinary_scope (scope : Scope) :
    scope.Rules (Report.finding ordinary_absorbs) (fun _ => True) fun _ => True where
  tolerant := finding_tolerant ordinary_absorbs
  gives := Resolver.gives_any _
  lower required node _ := ⟨SchemaLowering.lowerOption_ordinary required node, fun _ _ => trivial⟩

theorem ParameterLowering.lower_ordinary (scope : Scope) (shared own : List ParameterNode) :
    (lower scope shared own).Ordinary :=
  (lower_holds (ordinary_scope scope) fun _ _ _ _ => trivial).1

theorem RequestLowering.lower_ordinary (scope : Scope) (location : String)
    (node : Option RequestBodyNode) : (lower scope location node).Ordinary :=
  (lower_seats (ordinary_scope scope) location (fun holds => ⟨holds.1, holds.2⟩)
    (fun _ => ⟨finds_silent _ _, fun _ _ _ _ _ _ => trivial⟩) fun _ _ _ _ => trivial).1

theorem ResponseLowering.lower_ordinary (scope : Scope) (responses : Entries ResponseNode) :
    (lower scope responses).Ordinary :=
  (lower_holds (ordinary_scope scope) fun _ _ _ _ => trivial).1

open DocumentLowering in
-- What a document holds besides its operations changes nothing about them, and nothing is recorded
-- about any of them.
theorem DocumentLowering.lowerOthers_ordinary (scope : Scope) (d : ApiDocument) (paths : LoweredItem)
    (webhooks : List Ir.Webhook) :
    (lowerOthers scope d paths webhooks).Ordinary ∧
      ∀ parts, (lowerOthers scope d paths webhooks).outcome = .ok parts →
        parts.paths = paths ∧ parts.webhooks = webhooks := by
  have tolerant := finding_tolerant ordinary_absorbs
  have lowered (path : List String) (node : SchemaNode) : (Report.finding ordinary_absorbs).Holds
      (fun _ => True) (SchemaLowering.lower scope.resolver path node) :=
    ⟨SchemaLowering.lower_ordinary _ path node, fun _ _ => trivial⟩
  have components (e : String × SchemaNode) : (Report.finding ordinary_absorbs).Holds (fun _ => True)
      (SchemaLowering.lowerComponent scope.resolver scope.path e.1 e.2) :=
    SchemaLowering.lowerComponent_holds tolerant
      (fun _ _ => ⟨finds_silent _ _, fun _ _ => trivial⟩) (fun deeper _ => lowered deeper e.2)
      fun _ _ _ _ => id
  have others := lowerOthers_holds tolerant (fun _ => True) (fun e _ => components e)
    (VariableLowering.lower_holds (fun _ => True) (d := d) tolerant fun value =>
      ⟨(lowered _ _).1, fun _ _ _ _ => trivial⟩) paths webhooks
  exact ⟨others.1, fun parts done => (others.2 parts done).1⟩

end ApiLowering
