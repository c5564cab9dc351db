import ApiLowering.Proofs.Ignored
import ApiLowering.Proofs.Origins

/-!
The operations of a document where they are declared, in the order in which they are lowered: those
of its paths by document order and the fixed order of methods, and those of its webhooks. Ignored
operations are left out.
-/

set_option autoImplicit false

namespace ApiLowering

open DocumentLowering (Route)
open OperationLowering (kept normalizePath)

-- What one list has of another one that goes with it element by element.
theorem related_of_mem {α β : Type} {R : α → β → Prop} {as : List α} {bs : List β}
    (related : List.Forall₂ R as bs) {a : α} (listed : a ∈ as) : ∃ b ∈ bs, R a b := by
  induction related with
  | nil => cases listed
  | cons first _ ih =>
    rcases List.mem_cons.mp listed with rfl | later
    · exact ⟨_, List.mem_cons_self, first⟩
    · obtain ⟨b, among, holds⟩ := ih later
      exact ⟨b, List.mem_cons_of_mem _ among, holds⟩

/-- An operation that is not ignored, with the path that it is lowered under, the keys that its
findings lie under, and the parameters that its item shares among its operations. -/
structure Site where
  path : String
  keys : List String
  shared : List ParameterNode
  method : HttpMethod
  operation : Operation

namespace Site

def route (s : Site) : Route := (s.method, s.path)

-- Whether an operation under a path is marked as a webhook.
def isMarked (s : Site) : Bool := Extension.flag s.operation.extensions Extension.webhookKey

-- The operation after the election between the representations of its body.
def elected (policy : ConflictPolicy) (s : Site) : Site :=
  { s with operation := s.operation.elected policy }

def ofOperation (lead : List String) (path : String) (item : PathItem) (e : HttpMethod × Operation) :
    Site :=
  ⟨path, lead ++ [path, e.1.lowerName], item.parameters, e.1, e.2⟩

def ofItem (lead : List String) (path : String) (item : PathItem) : List Site :=
  (kept item).map (ofOperation lead path item)

def ofItems (lead : List String) (path : String → String) (items : Entries (Option PathItem)) :
    List Site :=
  items.flatMap fun e => e.2.toList.flatMap (ofItem lead (path e.1))

theorem ofItem_resolved (policy : ConflictPolicy) (lead : List String) (path : String)
    (item : PathItem) :
    ofItem lead path (ContentConflict.resolveItem policy item) =
      (ofItem lead path item).map (elected policy) := by
  unfold ofItem
  rw [OperationLowering.kept_resolved, List.map_map, List.map_map]
  rfl

theorem ofItems_resolved (policy : ConflictPolicy) (lead : List String) (path : String → String)
    (items : Entries (Option PathItem)) :
    ofItems lead path (ContentConflict.resolveItems policy items) =
      (ofItems lead path items).map (elected policy) := by
  unfold ofItems ContentConflict.resolveItems Entries.mapValues
  rw [List.flatMap_map, List.map_flatMap]
  refine List.flatMap_congr fun e _ => ?_
  obtain ⟨key, _ | item⟩ := e
  · rfl
  · simp only [Option.map_some, Option.toList_some, List.flatMap_singleton, ofItem_resolved]

-- The endpoint was lowered from the operation.
def Becomes (scope : Scope) (s : Site) (e : Ir.Endpoint) : Prop :=
  ∃ parameters,
    (ParameterLowering.lower scope s.shared s.operation.parameters).outcome = .ok parameters ∧
      (OperationLowering.lowerEndpoint scope s.path s.method s.operation parameters).outcome = .ok e

-- The webhook was lowered from the operation.
def Raises (scope : Scope) (s : Site) (w : Ir.Webhook) : Prop :=
  ∃ parameters,
    (ParameterLowering.lower scope s.shared s.operation.parameters).outcome = .ok parameters ∧
      (OperationLowering.lowerWebhook scope s.path s.method s.operation parameters.headers).outcome =
        .ok (some w)

theorem becomes_route {scope : Scope} {s : Site} {e : Ir.Endpoint} (made : s.Becomes scope e) :
    DocumentLowering.route e = s.route := by
  obtain ⟨parameters, -, made⟩ := made
  obtain ⟨request, -, made⟩ := Report.bind_ok made
  obtain ⟨⟨response, errors⟩, -, made⟩ := Report.bind_ok made
  cases Report.pure_ok made
  rfl

theorem raises_route {scope : Scope} {s : Site} {w : Ir.Webhook} (raised : s.Raises scope w) :
    (w.method, w.path) = s.route := by
  obtain ⟨parameters, -, raised⟩ := raised
  exact (OperationLowering.lowerWebhook_ok raised).2.1

theorem becomes_routes {scope : Scope} {sites : List Site} {endpoints : List Ir.Endpoint}
    (made : List.Forall₂ (Becomes scope) sites endpoints) :
    endpoints.map DocumentLowering.route = sites.map route := by
  induction made with
  | nil => rfl
  | cons first _ ih => rw [List.map_cons, List.map_cons, becomes_route first, ih]

theorem raises_routes {scope : Scope} {sites : List Site} {webhooks : List Ir.Webhook}
    (raised : List.Forall₂ (Raises scope) sites webhooks) :
    (webhooks.map fun w => (w.method, w.path)) = sites.map route := by
  induction raised with
  | nil => rfl
  | cons first _ ih => rw [List.map_cons, List.map_cons, raises_route first, ih]

end Site

namespace ApiDocument

-- The operations under `paths`.
def pathSites (d : ApiDocument) : List Site := Site.ofItems [] normalizePath d.paths

-- The operations that are called by clients.
def calls (d : ApiDocument) : List Site := d.pathSites.filter fun s => !s.isMarked

-- The operations that are webhooks: those that are marked, then those of the webhook items.
def events (d : ApiDocument) : List Site :=
  d.pathSites.filter Site.isMarked ++ Site.ofItems ["webhooks"] id d.webhooks

variable (policy : ConflictPolicy) (d : ApiDocument)

theorem pathSites_resolved :
    (d.resolveConflicts policy).pathSites = d.pathSites.map (Site.elected policy) :=
  Site.ofItems_resolved policy _ _ d.paths

theorem calls_resolved :
    (d.resolveConflicts policy).calls = d.calls.map (Site.elected policy) := by
  unfold calls
  rw [pathSites_resolved, List.filter_map]
  rfl

theorem events_resolved :
    (d.resolveConflicts policy).events = d.events.map (Site.elected policy) := by
  unfold events
  rw [pathSites_resolved, List.filter_map, List.map_append]
  exact congrArg _ (Site.ofItems_resolved policy _ _ d.webhooks)

end ApiDocument

end ApiLowering
