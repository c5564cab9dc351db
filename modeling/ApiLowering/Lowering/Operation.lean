import ApiLowering.Lowering.Parameter
import ApiLowering.Lowering.Request
import ApiLowering.Lowering.Response
import ApiLowering.Name.Route

/-!
Operations. Each operation of a path item becomes an endpoint or, when it is marked as one, a
webhook; every operation of a webhook item becomes a webhook. Ignored operations become nothing.
-/

set_option autoImplicit false

namespace ApiLowering

structure LoweredItem where
  endpoints : List Ir.Endpoint
  webhooks : List Ir.Webhook

namespace OperationLowering

def normalizePath (path : String) : String :=
  match Text.dropTail? ['/'] path.toList with
  | some (c :: rest) => String.ofList (c :: rest)
  | _ => path

-- The name given by an extension, else the operation's id, else a name derived from the route.
def name (path : String) (method : HttpMethod) (o : Operation) : NameVariants :=
  let route := Name.ofRoute method.name path
  let given := (Extension.text? o.extensions Extension.methodNameKey).or o.operationId
  ((given.bind fun raw => NameVariants.derive? raw none).or (NameVariants.derive? route none)).getD
    (NameVariants.uniform route)

def lowerEndpoint (scope : Scope) (path : String) (method : HttpMethod) (o : Operation)
    (parameters : LoweredParameters) : Report Ir.Endpoint := do
  let location := path ++ "." ++ method.lowerName
  let request ← RequestLowering.lower scope location o.requestBody
  let (response, errors) ← ResponseLowering.lower scope o.responses
  let security := (o.security.or scope.security).getD []
  return {
    method
    path
    operationId := o.operationId
    name := name path method o
    sdkGroupName := Extension.texts o.extensions Extension.groupNameKey
    summary := o.summary
    description := o.description
    tags := o.tags
    audiences := Extension.texts o.extensions Extension.audiencesKey
    pathParameters := parameters.path
    queryParameters := parameters.query
    headers := parameters.headers
    request
    response
    errorResponses := errors
    authed := security.any fun requirement => !requirement.isEmpty
    security
    isInternal := Extension.flag o.extensions Extension.internalKey
    deprecated := o.deprecated == some true }

-- A webhook needs a JSON payload; without one it is reported and left out.
def lowerWebhook (scope : Scope) (path : String) (method : HttpMethod) (o : Operation)
    (headers : List Ir.Parameter) : Report (Option Ir.Webhook) := do
  let body ←
    match o.requestBody with
    | some node => RequestLowering.resolve scope.resolver node
    | none => pure none
  match body.bind fun b => ContentConflict.firstOf? .json b.content with
  | none => do
    Report.find .malformedNode "webhook has no JSON payload"
    return none
  | some (_, media) => do
    let payload ←
      (SchemaLowering.lowerOption scope.resolver scope.path true media.schema).under ["requestBody"]
    return some {
      method
      path
      operationId := o.operationId
      name := name path method o
      summary := o.summary
      description := o.description
      tags := o.tags
      headers
      payload }

def isIgnored (o : Operation) : Bool := Extension.flag o.extensions Extension.ignoreKey

def kept (item : PathItem) : List (HttpMethod × Operation) :=
  item.operations.filter fun e => !isIgnored e.2

def lowerOperation (scope : Scope) (path : String) (item : PathItem) (method : HttpMethod)
    (o : Operation) : Report LoweredItem := do
  Extension.checkUnknown o.extensions
  let parameters ← ParameterLowering.lower scope item.parameters o.parameters
  if Extension.flag o.extensions Extension.webhookKey then
    let webhook ← lowerWebhook scope path method o parameters.headers
    return ⟨[], webhook.toList⟩
  else
    let endpoint ← lowerEndpoint scope path method o parameters
    return ⟨[endpoint], []⟩

def lowerItem (scope : Scope) (path : String) (item : PathItem) : Report LoweredItem := do
  let path := normalizePath path
  (Extension.checkUnknown item.extensions).under [path]
  let lowered ← Report.forEach
    (fun e => (lowerOperation scope path item e.1 e.2).under [path, e.1.lowerName]) (kept item)
  return ⟨lowered.flatMap LoweredItem.endpoints, lowered.flatMap LoweredItem.webhooks⟩

-- Lowers the operations of a webhook item, whose name stands for their path.
def lowerWebhookItem (scope : Scope) (key : String) (item : PathItem) : Report (List Ir.Webhook) :=
  Report.collect
    (fun e =>
      (do
        Extension.checkUnknown e.2.extensions
        let parameters ← ParameterLowering.lower scope item.parameters e.2.parameters
        lowerWebhook scope key e.1 e.2 parameters.headers
        : Report (Option Ir.Webhook)).under ["webhooks", key, e.1.lowerName])
    (kept item)

end OperationLowering

end ApiLowering
