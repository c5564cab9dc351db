import ApiLowering.Lowering.Document
import ApiLowering.Proofs.Positions

/-!
What operations are lowered to, put together to what items and documents are lowered to. A logic of
reports that holds of every schema that is lowered for an operation holds of its endpoint or its
webhook; and one that does not look at findings, and holds of those, holds of all parts of a document.
-/

set_option autoImplicit false

namespace ApiLowering

open Ir.Finding (ordinary_of_lead ordinary_of_message plain_of_malformed)
open Report (Certified Logic)

namespace Ir

def Endpoint.seats (e : Endpoint) : List Seat :=
  (e.pathParameters ++ e.queryParameters ++ e.headers).map Parameter.seat
    ++ e.request.toList.flatMap Request.seats
    ++ e.response.toList.flatMap Response.seats
    ++ e.errorResponses.flatMap ErrorResponse.seats

def Webhook.seats (w : Webhook) : List Seat :=
  w.headers.map Parameter.seat ++ [(false, w.payload)]

def Endpoint.withoutRequest (e : Endpoint) : Endpoint := { e with request := none }

def File.withoutRequests (f : File) : File :=
  { f with endpoints := f.endpoints.map Endpoint.withoutRequest }

-- The seats of an endpoint outside of its request are good, and its request is as asked for.
structure Endpoint.Fits (good : Seat → Prop) (asked : Request → Prop) (e : Endpoint) : Prop where
  outside : ∀ seat ∈ e.withoutRequest.seats, good seat
  request : ∀ r ∈ e.request, asked r

theorem Endpoint.Fits.seats {good : Seat → Prop} {e : Endpoint}
    (fits : e.Fits good fun r => ∀ seat ∈ r.seats, good seat) : ∀ seat ∈ e.seats, good seat := by
  intro seat here
  have placed : seat ∈ e.withoutRequest.seats ∨ ∃ r ∈ e.request, seat ∈ r.seats := by
    simp only [Endpoint.seats, Endpoint.withoutRequest, List.mem_append, List.mem_flatMap,
      Option.mem_toList, Option.toList_none, List.flatMap_nil, List.append_nil] at here ⊢
    rcases here with ((parameter | asked) | response) | error
    · exact .inl (.inl (.inl parameter))
    · exact .inr asked
    · exact .inl (.inl (.inr response))
    · exact .inl (.inr error)
  rcases placed with outside | ⟨r, present, among⟩
  · exact fits.outside seat outside
  · exact fits.request r present seat among

theorem Request.seats_schemas (r : Request) : r.seats.map Prod.snd = r.schemas := by
  cases r with
  | json _ _ _ _ | bytes _ _ _ => rfl
  | multipart _ properties _ _ =>
    simp only [seats, schemas, List.map_flatMap]
    congr 1
    funext p
    exact (List.map_map ..).trans (List.map_id _)

theorem Endpoint.seats_schemas (e : Endpoint) : e.seats.map Prod.snd = e.schemas := by
  have requests : (fun r : Request => r.seats.map Prod.snd) = Request.schemas :=
    funext Request.seats_schemas
  have responses : (fun r : Response => r.seats.map Prod.snd) = Response.schemas :=
    funext fun r => (List.map_map ..).trans (List.map_id _)
  have errors : (fun r : ErrorResponse => r.seats.map Prod.snd) = fun r => r.schema.toList :=
    funext fun r => (List.map_map ..).trans (List.map_id _)
  simp only [seats, schemas, List.map_append, List.map_flatMap, List.map_map, requests, responses,
    errors]
  rfl

theorem Webhook.seats_schemas (w : Webhook) : w.seats.map Prod.snd = w.schemas := by
  simp only [seats, schemas, List.map_append, List.map_map]
  rfl

end Ir

-- One thing holds of the endpoints of an item, and another one of its webhooks.
structure LoweredItem.Each (called : Ir.Endpoint → Prop) (raised : Ir.Webhook → Prop)
    (lowered : LoweredItem) : Prop where
  endpoints : ∀ e ∈ lowered.endpoints, called e
  webhooks : ∀ w ∈ lowered.webhooks, raised w

variable {logic : Logic} {scope : Scope} {called : Ir.Endpoint → Prop} {raised : Ir.Webhook → Prop}

theorem Extension.checkUnknown_holds (blind : logic.Blind) (extensions : Entries Json) :
    logic.Holds (fun _ => True) (checkUnknown extensions) :=
  Logic.holds_findings fun f _ => blind f

namespace OperationLowering

variable {item : PathItem} {path : String} {fits : LoweredParameters → Prop}

section

variable {given : Schema → Prop} {good : Ir.Seat → Prop} {o : Operation}

theorem operation_given (inside : ∀ s ∈ o.schemas, given s) :
    (∀ node ∈ o.parameters, ∀ s ∈ node.schemas, given s) ∧
      (∀ body ∈ o.requestBody, ∀ s ∈ body.schemas, given s) ∧
      ∀ node ∈ Entries.values o.responses, ∀ s ∈ node.schemas, given s := by
  refine ⟨fun node listed s here => inside s ?_, fun body present s here => inside s ?_,
    fun node listed s here => inside s ?_⟩
  · exact List.mem_append_left _
      (List.mem_append_left _ (List.mem_flatMap.mpr ⟨node, listed, here⟩))
  · exact List.mem_append_left _ (List.mem_append_right _
      (List.mem_flatMap.mpr ⟨body, Option.mem_toList.mpr present, here⟩))
  · exact List.mem_append_right _ (List.mem_flatMap.mpr ⟨node, listed, here⟩)

theorem item_given (inside : ∀ s ∈ item.schemas, given s) :
    (∀ node ∈ item.parameters, ∀ s ∈ node.schemas, given s) ∧
      ∀ e ∈ kept item, ∀ s ∈ e.2.schemas, given s := by
  refine ⟨fun node listed s here => inside s ?_, fun e listed s here => inside s ?_⟩
  · exact List.mem_append_left _ (List.mem_flatMap.mpr ⟨node, listed, here⟩)
  · exact List.mem_append_right _
      (List.mem_flatMap.mpr ⟨e, (List.mem_filter.mp listed).1, here⟩)

-- The seats of the parameters that an operation is lowered with.
abbrev GoodParameters (good : Ir.Seat → Prop) (ps : LoweredParameters) : Prop :=
  ∀ p ∈ ps.path ++ ps.query ++ ps.headers, good p.seat

theorem parameters_holds (rules : scope.Rules logic given good)
    (shared : ∀ node ∈ item.parameters, ∀ s ∈ node.schemas, given s)
    (own : ∀ s ∈ o.schemas, given s) :
    logic.Holds (GoodParameters good) (ParameterLowering.lower scope item.parameters o.parameters) := by
  refine ParameterLowering.lower_holds rules fun node listed => ?_
  rcases List.mem_append.mp listed with first | second
  · exact shared node first
  · exact (operation_given own).1 node second

theorem lowerEndpoint_holds (rules : scope.Rules logic given good) {asked : Ir.Request → Prop}
    (inside : ∀ s ∈ o.schemas, given s) {parameters : LoweredParameters}
    (lowered : GoodParameters good parameters)
    (requests : ∀ location, logic.Holds (fun found => ∀ r ∈ found, asked r)
      (RequestLowering.lower scope location o.requestBody)) (path : String) (method : HttpMethod) :
    logic.Holds (Ir.Endpoint.Fits good asked) (lowerEndpoint scope path method o parameters) := by
  have responses := ResponseLowering.lower_holds rules (operation_given inside).2.2
  refine logic.holds_next (requests _) fun request sent => ?_
  refine logic.holds_next responses fun out answered => logic.holds_pure ⟨fun seat here => ?_, sent⟩
  simp only [Ir.Endpoint.seats, Ir.Endpoint.withoutRequest, List.mem_append] at here
  rcases here with ((parameter | request) | response) | error
  · obtain ⟨p, listed, same⟩ := List.mem_map.mp parameter
    exact same ▸ lowered p (by simpa only [List.mem_append] using listed)
  · exact absurd request List.not_mem_nil
  · obtain ⟨answer, present, among⟩ := List.mem_flatMap.mp response
    exact answered.1 answer (Option.mem_toList.mp present) seat among
  · obtain ⟨e, listed, among⟩ := List.mem_flatMap.mp error
    exact answered.2 e listed seat among

theorem lowerWebhook_holds (rules : scope.Rules logic given good) (blind : logic.Blind)
    (inside : ∀ s ∈ o.schemas, given s) {headers : List Ir.Parameter}
    (lowered : ∀ p ∈ headers, good p.seat) (path : String) (method : HttpMethod) :
    logic.Holds (fun found => ∀ w ∈ found, ∀ seat ∈ w.seats, good seat)
      (lowerWebhook scope path method o headers) := by
  have unpaid : logic.Holds (fun found => ∀ w ∈ found, ∀ seat ∈ Ir.Webhook.seats w, good seat) (do
      Report.find .malformedNode "webhook has no JSON payload"
      return none) := logic.holds_next (blind _) fun _ _ => logic.holds_none
  unfold lowerWebhook
  cases present : o.requestBody with
  | none => exact unpaid
  | some node =>
    have inside := (operation_given inside).2.1 node present
    have resolves := (RequestLowering.resolve_resolves scope.resolver node).holds rules.tolerant
    refine logic.holds_next resolves fun body same => ?_
    dsimp only
    split
    · exact unpaid
    · rename_i media first
      obtain ⟨b, found, first⟩ := Option.bind_eq_some_iff.mp first
      have content := RequestLowering.body_given rules.gives inside (same ▸ found)
      refine logic.holds_next (logic.holds_under _ (rules.lower true (firstOf_given content first)))
        fun payload is => logic.holds_some fun seat here => ?_
      rcases List.mem_append.mp here with header | last
      · obtain ⟨p, listed, same⟩ := List.mem_map.mp header
        exact same ▸ lowered p listed
      · exact List.mem_singleton.mp last ▸ is

end

-- What holds of the endpoint or of the webhook that an operation is lowered to, with the parameters
-- that it declares together with the item.
theorem lowerOperation_holds (blind : logic.Blind) {method : HttpMethod} {o : Operation}
    (parameters : logic.Holds fits (ParameterLowering.lower scope item.parameters o.parameters))
    (endpoint : ∀ ps,
      (ParameterLowering.lower scope item.parameters o.parameters).outcome = .ok ps → fits ps →
        logic.Holds called (lowerEndpoint scope path method o ps))
    (webhook : ∀ ps,
      (ParameterLowering.lower scope item.parameters o.parameters).outcome = .ok ps → fits ps →
        logic.Holds (fun found => ∀ w ∈ found, raised w)
          (lowerWebhook scope path method o ps.headers)) :
    logic.Holds (LoweredItem.Each called raised) (lowerOperation scope path item method o) := by
  refine logic.holds_next (Extension.checkUnknown_holds blind _) fun _ _ => ?_
  refine logic.holds_bind parameters fun ps merged fine => ?_
  split
  · refine logic.holds_next (webhook ps merged fine) fun found is => logic.holds_pure ?_
    exact ⟨fun _ here => absurd here List.not_mem_nil, fun w here => is w (Option.mem_toList.mp here)⟩
  · refine logic.holds_next (endpoint ps merged fine) fun e is => logic.holds_pure ?_
    exact ⟨fun other here => List.mem_singleton.mp here ▸ is,
      fun _ here => absurd here List.not_mem_nil⟩

theorem lowerItem_holds (blind : logic.Blind)
    (each : ∀ e ∈ kept item, logic.Holds (LoweredItem.Each called raised)
      (lowerOperation scope (normalizePath path) item e.1 e.2)) :
    logic.Holds (LoweredItem.Each called raised) (lowerItem scope path item) := by
  refine logic.holds_next (logic.holds_under _ (Extension.checkUnknown_holds blind _)) fun _ _ => ?_
  refine logic.holds_next (logic.holds_forEach fun e listed => logic.holds_under _ (each e listed))
    fun lowered all => logic.holds_pure ⟨fun endpoint here => ?_, fun webhook here => ?_⟩
  · obtain ⟨one, listed, among⟩ := List.mem_flatMap.mp here
    exact (all one listed).endpoints endpoint among
  · obtain ⟨one, listed, among⟩ := List.mem_flatMap.mp here
    exact (all one listed).webhooks webhook among

theorem lowerWebhookItem_holds (blind : logic.Blind) {key : String}
    (parameters : ∀ e ∈ kept item,
      logic.Holds fits (ParameterLowering.lower scope item.parameters e.2.parameters))
    (webhook : ∀ e ∈ kept item, ∀ ps,
      (ParameterLowering.lower scope item.parameters e.2.parameters).outcome = .ok ps → fits ps →
        logic.Holds (fun found => ∀ w ∈ found, raised w)
          (lowerWebhook scope key e.1 e.2 ps.headers)) :
    logic.Holds (fun ws => ∀ w ∈ ws, raised w) (lowerWebhookItem scope key item) := by
  refine logic.holds_collect fun e listed => logic.holds_under _ ?_
  refine logic.holds_next (Extension.checkUnknown_holds blind _) fun _ _ => ?_
  exact logic.holds_bind (parameters e listed) fun ps merged fine => webhook e listed ps merged fine

section

variable {given : Schema → Prop} {good : Ir.Seat → Prop} {asked : Ir.Request → Prop}

theorem lowerItem_fits (rules : scope.Rules logic given good) (blind : logic.Blind)
    (inside : ∀ s ∈ item.schemas, given s)
    (requests : ∀ e ∈ kept item, ∀ location, logic.Holds (fun found => ∀ r ∈ found, asked r)
      (RequestLowering.lower scope location e.2.requestBody)) (path : String) :
    logic.Holds (LoweredItem.Each (Ir.Endpoint.Fits good asked) fun w => ∀ seat ∈ w.seats, good seat)
      (lowerItem scope path item) := by
  obtain ⟨shared, own⟩ := item_given inside
  refine lowerItem_holds blind fun e listed => ?_
  refine lowerOperation_holds blind (parameters_holds rules shared (own e listed)) ?_ ?_
  · exact fun ps _ lowered => lowerEndpoint_holds rules (own e listed) lowered (requests e listed) _ _
  · exact fun ps _ lowered => lowerWebhook_holds rules blind (own e listed)
      (fun p here => lowered p (List.mem_append_right _ here)) _ _

theorem lowerWebhookItem_fits (rules : scope.Rules logic given good) (blind : logic.Blind)
    (inside : ∀ s ∈ item.schemas, given s) (key : String) :
    logic.Holds (fun ws => ∀ w ∈ ws, ∀ seat ∈ w.seats, good seat)
      (lowerWebhookItem scope key item) := by
  obtain ⟨shared, own⟩ := item_given inside
  refine lowerWebhookItem_holds blind (fun e listed => parameters_holds rules shared (own e listed)) ?_
  exact fun e listed ps _ lowered => lowerWebhook_holds rules blind (own e listed)
    (fun p here => lowered p (List.mem_append_right _ here)) _ _

end

end OperationLowering

namespace VariableLowering

variable {r : Resolver} {path : List String} (varied : Ir.PrimitiveSchema → Prop)

-- What holds of the primitive schema that a variable may be lowered to.
theorem lowerOne_holds (tolerant : logic.Tolerant) {name : String} {value : Json}
    (lowered : logic.Holds (fun found => ∀ p, found = .ok (.primitive p) → varied p)
      (SchemaLowering.lower r path (node value)).attempt) :
    logic.Holds (fun found => ∀ e ∈ found, varied e.2) (lowerOne r path name value) := by
  refine logic.holds_under _ (logic.holds_next lowered fun found is => ?_)
  split
  · exact logic.holds_some (is _ rfl)
  · rw [String.append_assoc]
    exact tolerant.missing (plain_of_malformed (ordinary_of_lead rfl (by decide) _ _))

theorem lower_holds (tolerant : logic.Tolerant) {d : ApiDocument}
    (lowered : ∀ value, logic.Holds (fun found => ∀ p, found = .ok (.primitive p) → varied p)
      (SchemaLowering.lower r path (node value)).attempt) :
    logic.Holds (fun all => ∀ e ∈ all, varied e.2) (lower r path d) := by
  unfold lower
  split
  · exact logic.holds_collect fun e _ => lowerOne_holds varied tolerant (lowered e.2)
  · exact logic.holds_pure fun _ here => absurd here List.not_mem_nil

end VariableLowering

namespace DocumentLowering

theorem dropRepeats_holds (blind : logic.Blind) (seen : List Route) {endpoints : List Ir.Endpoint}
    (all : ∀ e ∈ endpoints, called e) :
    logic.Holds (fun es => ∀ e ∈ es, called e) (dropRepeats seen endpoints) := by
  induction endpoints generalizing seen with
  | nil => exact logic.holds_pure fun _ here => absurd here List.not_mem_nil
  | cons e rest ih =>
    have later := fun seen => ih seen fun other listed => all other (List.mem_cons_of_mem _ listed)
    rw [dropRepeats]
    split
    · exact logic.holds_next (logic.holds_under _ (blind _)) fun _ _ => later seen
    · exact logic.holds_next (later _) fun more others =>
        logic.holds_pure (List.forall_mem_cons.mpr ⟨all e List.mem_cons_self, others⟩)

/-- What holds of all items of paths, whatever routes there were before. -/
theorem lowerPaths_holds (blind : logic.Blind) {items : List (String × Option PathItem)}
    (each : ∀ path item, (path, some item) ∈ items →
      logic.Holds (LoweredItem.Each called raised) (OperationLowering.lowerItem scope path item))
    (seen : List Route) :
    logic.Holds (LoweredItem.Each called raised) (lowerPaths scope seen items) := by
  induction items generalizing seen with
  | nil =>
    exact logic.holds_pure ⟨fun _ here => absurd here List.not_mem_nil,
      fun _ here => absurd here List.not_mem_nil⟩
  | cons e rest ih =>
    have later := ih fun path item listed => each path item (List.mem_cons_of_mem _ listed)
    obtain ⟨path, item⟩ := e
    cases item with
    | none => exact later seen
    | some item =>
      rw [lowerPaths]
      refine logic.holds_next (each path item List.mem_cons_self) fun lowered own => ?_
      refine logic.holds_next (dropRepeats_holds blind seen own.endpoints) fun endpoints fresh => ?_
      refine logic.holds_next (later _) fun more others => logic.holds_pure ?_
      exact ⟨List.forall_mem_append.mpr ⟨fresh, others.endpoints⟩,
        List.forall_mem_append.mpr ⟨own.webhooks, others.webhooks⟩⟩

theorem lowerWebhooks_holds {items : Entries (Option PathItem)}
    (each : ∀ key item, (key, some item) ∈ items → logic.Holds (fun ws => ∀ w ∈ ws, raised w)
      (OperationLowering.lowerWebhookItem scope key item)) :
    logic.Holds (fun ws => ∀ w ∈ ws, raised w) (lowerWebhooks scope items) := by
  refine logic.holds_next (logic.holds_forEach fun e listed =>
    (?_ : logic.Holds (fun (ws : List Ir.Webhook) => ∀ w ∈ ws, raised w) _)) fun all good => ?_
  · obtain ⟨key, item⟩ := e
    cases item with
    | none => exact logic.holds_pure fun _ here => absurd here List.not_mem_nil
    | some item => exact each key item listed
  · refine logic.holds_pure fun w here => ?_
    obtain ⟨ws, listed, among⟩ := List.mem_flatten.mp here
    exact good ws listed w among

theorem lowerSchemas_holds {r : Resolver} {path : List String} {good : Ir.Schema → Prop}
    {schemas : Entries SchemaNode}
    (each : ∀ e ∈ schemas, logic.Holds good (SchemaLowering.lowerComponent r path e.1 e.2)) :
    logic.Holds (fun es => ∀ e ∈ es, good e.2) (lowerSchemas r path schemas) := by
  refine logic.holds_forEach fun e listed => ?_
  exact logic.holds_next (each e listed) fun schema is => logic.holds_pure is

theorem lowerServer_holds (tolerant : logic.Tolerant) (e : Server × Nat) :
    logic.Holds (fun found => ∀ s ∈ found, True) (lowerServer e) := by
  unfold lowerServer
  split
  · exact logic.holds_some trivial
  · refine logic.holds_next (logic.holds_under _ (tolerant _ ?_)) fun _ _ => logic.holds_none
    exact plain_of_malformed (ordinary_of_message (by decide) _)

theorem lowerTag_holds (tolerant : logic.Tolerant) (e : Tag × Nat) :
    logic.Holds (fun found => ∀ t ∈ found, True) (lowerTag e) := by
  unfold lowerTag
  split
  · exact logic.holds_some trivial
  · refine logic.holds_next (logic.holds_under _ (tolerant _ ?_)) fun _ _ => logic.holds_none
    exact plain_of_malformed (ordinary_of_message (by decide) _)

-- The lowering of what a document holds besides its operations.
def lowerOthers (scope : Scope) (d : ApiDocument) (paths : LoweredItem)
    (webhooks : List Ir.Webhook) : Report Parts := do
  let schemas ← lowerSchemas scope.resolver scope.path d.componentSchemas
  let sdkVariables ← VariableLowering.lower scope.resolver scope.path d
  let servers ← Report.collect lowerServer d.servers.zipIdx
  let tags ← Report.collect lowerTag d.tags.zipIdx
  return ⟨paths, webhooks, schemas, sdkVariables, servers, tags⟩

theorem lowerOthers_holds (tolerant : logic.Tolerant) {sound : Ir.Schema → Prop}
    (varied : Ir.PrimitiveSchema → Prop) {d : ApiDocument}
    (components : ∀ e ∈ d.componentSchemas, logic.Holds sound
      (SchemaLowering.lowerComponent scope.resolver scope.path e.1 e.2))
    (sdkVariables : logic.Holds (fun all => ∀ e ∈ all, varied e.2)
      (VariableLowering.lower scope.resolver scope.path d))
    (paths : LoweredItem) (webhooks : List Ir.Webhook) :
    logic.Holds (fun parts => (parts.paths = paths ∧ parts.webhooks = webhooks) ∧
      (∀ e ∈ parts.schemas, sound e.2) ∧ ∀ e ∈ parts.sdkVariables, varied e.2)
      (lowerOthers scope d paths webhooks) := by
  refine logic.holds_next (lowerSchemas_holds components) fun schemas onSchemas => ?_
  refine logic.holds_next sdkVariables fun found onVariables => ?_
  refine logic.holds_next (logic.holds_collect fun e _ => lowerServer_holds tolerant e) fun _ _ => ?_
  refine logic.holds_next (logic.holds_collect fun e _ => lowerTag_holds tolerant e) fun _ _ => ?_
  exact logic.holds_pure ⟨⟨rfl, rfl⟩, onSchemas, onVariables⟩

-- What holds of the parts of a document: of the seats in them, of the requests, and of the variables.
structure Parts.Fit (good : Ir.Seat → Prop) (asked : Ir.Request → Prop)
    (varied : Ir.PrimitiveSchema → Prop) (parts : Parts) : Prop where
  paths : parts.paths.Each (Ir.Endpoint.Fits good asked) fun w => ∀ seat ∈ w.seats, good seat
  webhooks : ∀ w ∈ parts.webhooks, ∀ seat ∈ w.seats, good seat
  schemas : ∀ e ∈ parts.schemas, good (false, e.2)
  sdkVariables : ∀ e ∈ parts.sdkVariables, varied e.2

theorem item_listed {d : ApiDocument} {key : String} {item : PathItem}
    (listed : (key, some item) ∈ d.paths ++ d.webhooks) : item.schemas ⊆ d.inlineSchemas := by
  intro s here
  refine List.mem_append_left _ (List.mem_flatMap.mpr ⟨some item, ?_, List.mem_flatMap.mpr
    ⟨item, Option.mem_toList.mpr rfl, here⟩⟩)
  rw [Entries.values, Entries.values, ← List.map_append]
  exact List.mem_map_of_mem listed

/-- What holds of the parts of a document, if all of its inline schemas are given. -/
theorem lowerParts_holds {given : Schema → Prop} {good : Ir.Seat → Prop} {asked : Ir.Request → Prop}
    (varied : Ir.PrimitiveSchema → Prop) (rules : scope.Rules logic given good)
    (blind : logic.Blind) {d : ApiDocument} (inside : ∀ s ∈ d.inlineSchemas, given s)
    (requests : ∀ path item, (path, some item) ∈ d.paths → ∀ e ∈ OperationLowering.kept item,
      ∀ location, logic.Holds (fun found => ∀ r ∈ found, asked r)
        (RequestLowering.lower scope location e.2.requestBody))
    (components : ∀ e ∈ d.componentSchemas, logic.Holds (fun s => good (false, s))
      (SchemaLowering.lowerComponent scope.resolver scope.path e.1 e.2))
    (sdkVariables : logic.Holds (fun all => ∀ e ∈ all, varied e.2)
      (VariableLowering.lower scope.resolver scope.path d)) :
    logic.Holds (Parts.Fit good asked varied) (lowerParts scope d) := by
  have tolerant := blind.tolerant
  have items (key : String) (item : PathItem) (listed : (key, some item) ∈ d.paths ++ d.webhooks) :
      ∀ s ∈ item.schemas, given s := fun s here => inside s (item_listed listed here)
  refine logic.holds_next (lowerPaths_holds blind (fun path item listed =>
    OperationLowering.lowerItem_fits rules blind (items path item (List.mem_append_left _ listed))
      (requests path item listed) path) []) fun paths onPaths => ?_
  refine logic.holds_next (lowerWebhooks_holds fun key item listed =>
    OperationLowering.lowerWebhookItem_fits rules blind
      (items key item (List.mem_append_right _ listed)) key) fun webhooks onWebhooks => ?_
  refine logic.holds_mono (lowerOthers_holds tolerant varied components sdkVariables paths webhooks) ?_
  rintro parts ⟨⟨rfl, rfl⟩, onSchemas, onVariables⟩
  exact ⟨onPaths, onWebhooks, onSchemas, onVariables⟩

theorem Parts.Fit.allRaised {good : Ir.Seat → Prop} {asked : Ir.Request → Prop}
    {varied : Ir.PrimitiveSchema → Prop} {parts : Parts} (fit : parts.Fit good asked varied) :
    ∀ w ∈ parts.paths.webhooks ++ parts.webhooks, ∀ seat ∈ w.seats, good seat :=
  List.forall_mem_append.mpr ⟨fit.paths.webhooks, fit.webhooks⟩

/-- What successful outcomes are like at every seat of the parts of a document, those of requests
included. -/
theorem lowerParts_certified {given : Schema → Prop} {good : Ir.Seat → Prop}
    (varied : Ir.PrimitiveSchema → Prop) {fine : String → Prop}
    (rules : scope.Rules (Report.certifying fine) given good) {d : ApiDocument}
    (inside : ∀ s ∈ d.inlineSchemas, given s)
    (components : ∀ e ∈ d.componentSchemas, Certified (fun s => good (false, s)) fine
      (SchemaLowering.lowerComponent scope.resolver scope.path e.1 e.2))
    (sdkVariables : Certified (fun all => ∀ e ∈ all, varied e.2) fine
      (VariableLowering.lower scope.resolver scope.path d)) :
    Certified (Parts.Fit good (fun r => ∀ seat ∈ r.seats, good seat) varied) fine
      (lowerParts scope d) := by
  refine lowerParts_holds varied rules (Report.Logic.certifying_blind fine) inside ?_ components
    sdkVariables
  intro path item listed e among location
  have own := (OperationLowering.item_given fun s here =>
    inside s (item_listed (List.mem_append_left _ listed) here)).2 e among
  exact RequestLowering.lower_seats rules location Report.certified_withoutMarks
    Report.certified_fail (OperationLowering.operation_given own).2.1

end DocumentLowering

end ApiLowering
