import ApiLowering.Proofs.Assembly
import ApiLowering.Proofs.Operations

/-!
Where endpoints and webhooks come from. Every endpoint and every webhook of a lowered document was
lowered from an operation of one of its path items that is not ignored, with the parameters that the
item and the operation declare together; and no endpoint is kept on a route that one before it has.
-/

set_option autoImplicit false

namespace ApiLowering

open Report (Yields yields_intro)
open Report.Logic (certifying_blind)

namespace OperationLowering

-- The endpoint was lowered from an operation of the item.
def EndpointOf (scope : Scope) (path : String) (item : PathItem) (e : Ir.Endpoint) : Prop :=
  ∃ operation ∈ kept item, ∃ parameters,
    (ParameterLowering.lower scope item.parameters operation.2.parameters).outcome = .ok parameters ∧
      (lowerEndpoint scope (normalizePath path) operation.1 operation.2 parameters).outcome = .ok e

-- The webhook was lowered from an operation of the item.
def WebhookOf (scope : Scope) (path : String) (item : PathItem) (w : Ir.Webhook) : Prop :=
  ∃ operation ∈ kept item, ∃ parameters,
    (ParameterLowering.lower scope item.parameters operation.2.parameters).outcome = .ok parameters ∧
      (lowerWebhook scope path operation.1 operation.2 parameters.headers).outcome = .ok (some w)

variable {scope : Scope} {item : PathItem}

-- What a webhook is made of: the headers it is given, the route and the name of its operation, and a
-- payload that is lowered on its own.
theorem lowerWebhook_ok {path : String} {method : HttpMethod} {o : Operation}
    {headers : List Ir.Parameter} {w : Ir.Webhook}
    (made : (lowerWebhook scope path method o headers).outcome = .ok (some w)) :
    w.headers = headers ∧ (w.method, w.path) = (method, path) ∧ w.name = name path method o ∧ ∃ schema,
      (SchemaLowering.lowerOption scope.resolver scope.path true schema).outcome = .ok w.payload := by
  unfold lowerWebhook at made
  cases present : o.requestBody with
  | none =>
    rw [present] at made
    cases made
  | some node =>
    rw [present] at made
    obtain ⟨body, -, made⟩ := Report.bind_ok made
    dsimp only at made
    split at made
    · cases made
    · rename_i media _
      obtain ⟨payload, lowered, made⟩ := Report.bind_ok made
      cases Report.pure_ok made
      exact ⟨rfl, rfl, rfl, media.schema, lowered⟩

theorem lowerItem_origins (path : String) :
    Yields (LoweredItem.Each (EndpointOf scope path item) (WebhookOf scope (normalizePath path) item))
      (lowerItem scope path item) := by
  refine lowerItem_holds (certifying_blind _) fun operation listed => ?_
  refine lowerOperation_holds (certifying_blind _) (Report.certified_any _) ?_ ?_
  · exact fun ps merged _ => yields_intro fun e made => ⟨operation, listed, ps, merged, made⟩
  · exact fun ps merged _ => yields_intro fun found raised w here =>
      ⟨operation, listed, ps, merged, here ▸ raised⟩

theorem lowerWebhookItem_origins (key : String) :
    Yields (fun ws => ∀ w ∈ ws, WebhookOf scope key item w) (lowerWebhookItem scope key item) := by
  refine lowerWebhookItem_holds (certifying_blind _) (fun _ _ => Report.certified_any _) ?_
  exact fun operation listed ps merged _ => yields_intro fun found raised w here =>
    ⟨operation, listed, ps, merged, here ▸ raised⟩

end OperationLowering

namespace DocumentLowering

variable {scope : Scope}

theorem dropRepeats_routes {endpoints : List Ir.Endpoint} (seen : List Route) :
    Yields (fun fresh => (fresh.map route).Nodup ∧ ∀ e ∈ fresh, route e ∉ seen)
      (dropRepeats seen endpoints) := by
  induction endpoints generalizing seen with
  | nil =>
    exact Report.certified_pure ⟨List.nodup_nil, fun _ here => absurd here List.not_mem_nil⟩
  | cons e rest ih =>
    rw [dropRepeats]
    split
    · exact Report.certified_bind (Report.certified_any _) fun _ _ => ih seen
    · rename_i new
      have unseen : route e ∉ seen := by simpa using new
      refine Report.certified_bind (ih (route e :: seen)) fun more all => ?_
      obtain ⟨distinct, each⟩ := all
      refine Report.certified_pure ⟨List.nodup_cons.mpr ⟨fun here => ?_, distinct⟩, ?_⟩
      · obtain ⟨other, listed, same⟩ := List.mem_map.mp here
        exact each other listed (same ▸ List.mem_cons_self)
      · exact List.forall_mem_cons.mpr ⟨unseen, fun other here before =>
          each other here (List.mem_cons_of_mem _ before)⟩

theorem lowerWebhooks_origins (scope : Scope) (items : Entries (Option PathItem)) :
    Yields (fun ws => ∀ w ∈ ws, ∃ path item, OperationLowering.WebhookOf scope path item w)
      (lowerWebhooks scope items) := by
  refine @lowerWebhooks_holds (Report.certifying fun _ => True) scope _ items fun key item _ => ?_
  exact Report.certified_mono (OperationLowering.lowerWebhookItem_origins key) fun ws own w here =>
    ⟨key, item, own w here⟩

theorem lowerPaths_routes (items : List (String × Option PathItem)) (seen : List Route) :
    Yields (fun lowered =>
        (lowered.endpoints.map route).Nodup ∧ ∀ e ∈ lowered.endpoints, route e ∉ seen)
      (lowerPaths scope seen items) := by
  induction items generalizing seen with
  | nil => exact Report.certified_pure ⟨List.nodup_nil, fun _ here => absurd here List.not_mem_nil⟩
  | cons first rest ih =>
    obtain ⟨path, item⟩ := first
    cases item with
    | none => exact ih seen
    | some item =>
      rw [lowerPaths]
      refine Report.certified_bind (Report.certified_any _) fun lowered _ => ?_
      refine Report.certified_bind (dropRepeats_routes seen) fun endpoints kept => ?_
      refine Report.certified_bind (ih _) fun more later => ?_
      obtain ⟨distinct, fresh⟩ := kept
      obtain ⟨distinctMore, others⟩ := later
      refine Report.certified_pure ⟨?_, fun e here => ?_⟩
      · rw [List.map_append]
        refine List.nodup_append.mpr ⟨distinct, distinctMore, fun first now second after same => ?_⟩
        obtain ⟨e, listed, keyed⟩ := List.mem_map.mp after
        exact others e listed (List.mem_append_left _ (keyed.trans same.symm ▸ now))
      · rcases List.mem_append.mp here with now | after
        · exact fresh e now
        · exact fun before => others e after (List.mem_append_right _ before)

end DocumentLowering

open DocumentLowering OperationLowering

variable {options : Options} {d : ApiDocument} {file : Ir.File}

-- The paths and the webhooks that a lowered document is assembled with.
theorem parts_of_lower (done : d.lower options = .ok file) :
    ∃ title description parts, file = d.assembled options title description parts ∧
      (lowerPaths (d.loweringScope options) []
        (d.resolveConflicts options.contentConflict).paths).outcome = .ok parts.paths ∧
      (lowerWebhooks (d.loweringScope options)
        (d.resolveConflicts options.contentConflict).webhooks).outcome = .ok parts.webhooks := by
  obtain ⟨title, description, parts, outcome, same⟩ := staged_of_lower done
  obtain ⟨paths, onPaths, outcome⟩ := Report.bind_ok outcome
  obtain ⟨webhooks, onWebhooks, outcome⟩ := Report.bind_ok outcome
  obtain ⟨schemas, -, outcome⟩ := Report.bind_ok outcome
  obtain ⟨sdkVariables, -, outcome⟩ := Report.bind_ok outcome
  obtain ⟨servers, -, outcome⟩ := Report.bind_ok outcome
  obtain ⟨tags, -, outcome⟩ := Report.bind_ok outcome
  cases outcome
  exact ⟨title, description, _, same, onPaths, onWebhooks⟩

/-- Every endpoint of a lowered document was lowered from an operation of a path item, every webhook
from one of a path item or a webhook item. -/
theorem origins_of_lower (done : d.lower options = .ok file) :
    (∀ e ∈ file.endpoints, ∃ path item,
      (path, some item) ∈ (d.resolveConflicts options.contentConflict).paths ∧
        EndpointOf (d.loweringScope options) path item e) ∧
      ∀ w ∈ file.webhooks, ∃ path item, WebhookOf (d.loweringScope options) path item w := by
  obtain ⟨title, description, parts, same, onPaths, onWebhooks⟩ := parts_of_lower done
  subst same
  have paths : parts.paths.Each
      (fun e => ∃ path item,
        (path, some item) ∈ (d.resolveConflicts options.contentConflict).paths ∧
          EndpointOf (d.loweringScope options) path item e)
      (fun w => ∃ path item, WebhookOf (d.loweringScope options) path item w) := by
    refine (lowerPaths_holds (certifying_blind fun _ => True)
      (fun path item listed => ?_) []).outcome _ onPaths
    exact Report.certified_mono (lowerItem_origins path) fun lowered own =>
      ⟨fun e here => ⟨path, item, listed, own.endpoints e here⟩,
        fun w here => ⟨_, item, own.webhooks w here⟩⟩
  have webhooks := (lowerWebhooks_origins _ _).outcome _ onWebhooks
  exact ⟨paths.endpoints, List.forall_mem_append.mpr ⟨paths.webhooks, webhooks⟩⟩

/-- No two endpoints of a lowered document share their method and path. -/
theorem routes_of_lower (done : d.lower options = .ok file) : (file.endpoints.map route).Nodup := by
  obtain ⟨title, description, parts, same, onPaths, -⟩ := parts_of_lower done
  subst same
  exact ((lowerPaths_routes _ []).outcome _ onPaths).1

end ApiLowering
