import ApiLowering.Document.ContentConflict
import ApiLowering.Ir.File
import ApiLowering.Lowering.Operation
import ApiLowering.Lowering.Security
import ApiLowering.Lowering.Variable
import ApiLowering.ReferenceCount

/-!
Lowering of a whole document. It fails only when a title is missing, a composition refers to itself
or too deep, or a request body is left with two representations; everything else becomes a finding.
-/

set_option autoImplicit false

namespace ApiLowering

namespace DocumentLowering

def diverged (c : ContentConflict) : Ir.Finding :=
  ⟨.contentConflict, [c.location],
    "kept " ++ c.kept ++ " and discarded " ++ c.discarded ++ ", whose schema differs"⟩

abbrev Route : Type := HttpMethod × String

def route (e : Ir.Endpoint) : Route := (e.method, e.path)

-- The endpoints whose route was not seen before; the others are reported.
def dropRepeats : List Route → List Ir.Endpoint → Report (List Ir.Endpoint)
  | _, [] => .ok []
  | seen, e :: rest =>
    if seen.contains (route e) then do
      (Report.find .duplicateEndpoint
        (e.method.name ++ " " ++ e.path ++ " is declared more than once; keeping the first")).under
          [e.path, e.method.lowerName]
      dropRepeats seen rest
    else do
      let more ← dropRepeats (route e :: seen) rest
      return e :: more

-- Lowers path items in order; `seen` holds the routes of the endpoints before them.
def lowerPaths (scope : Scope) : List Route → List (String × Option PathItem) → Report LoweredItem
  | _, [] => .ok ⟨[], []⟩
  | seen, (_, none) :: rest => lowerPaths scope seen rest
  | seen, (path, some item) :: rest => do
    let lowered ← OperationLowering.lowerItem scope path item
    let endpoints ← dropRepeats seen lowered.endpoints
    let more ← lowerPaths scope (endpoints.map route ++ seen) rest
    return ⟨endpoints ++ more.endpoints, lowered.webhooks ++ more.webhooks⟩

def lowerWebhooks (scope : Scope) (items : Entries (Option PathItem)) :
    Report (List Ir.Webhook) := do
  let webhooks ← Report.forEach
    (fun (e : String × Option PathItem) =>
      match e.2 with
      | some item => OperationLowering.lowerWebhookItem scope e.1 item
      | none => .ok [])
    items
  return webhooks.flatten

def lowerSchemas (r : Resolver) (path : List String) (schemas : Entries SchemaNode) :
    Report (Entries Ir.Schema) :=
  Report.forEach
    (fun (e : String × SchemaNode) => do
      let schema ← SchemaLowering.lowerComponent r path e.1 e.2
      return (e.1, schema))
    schemas

def lowerServer (e : Server × Nat) : Report (Option Ir.Server) :=
  match e.1.url with
  | some url =>
    .ok (some ⟨url, e.1.description, Extension.text? e.1.extensions Extension.serverNameKey⟩)
  | none => do
    (Report.find .malformedNode "server has no url").under ["servers", toString e.2]
    return none

def lowerTag (e : Tag × Nat) : Report (Option Ir.Tag) :=
  match e.1.name with
  | some name => .ok (some ⟨name, e.1.description⟩)
  | none => do
    (Report.find .malformedNode "tag has no name").under ["tags", toString e.2]
    return none

-- Declared tags, then those that endpoints use without a declaration.
def tags (declared : List Ir.Tag) (endpoints : List Ir.Endpoint) : Entries Ir.Tag :=
  (endpoints.flatMap fun e => e.tags).foldl
    (fun seen name =>
      if Entries.contains name seen then seen else seen ++ [(name, (⟨name, none⟩ : Ir.Tag))])
    (Entries.collect (declared.map fun t => (t.id, t)))

structure Parts where
  paths : LoweredItem
  webhooks : List Ir.Webhook
  schemas : Entries Ir.Schema
  sdkVariables : Entries Ir.PrimitiveSchema
  servers : List Ir.Server
  tags : List Ir.Tag

def lowerParts (scope : Scope) (d : ApiDocument) : Report Parts := do
  let paths ← lowerPaths scope [] d.paths
  let webhooks ← lowerWebhooks scope d.webhooks
  let schemas ← lowerSchemas scope.resolver scope.path d.componentSchemas
  let sdkVariables ← VariableLowering.lower scope.resolver scope.path d
  let servers ← Report.collect lowerServer d.servers.zipIdx
  let tags ← Report.collect lowerTag d.tags.zipIdx
  return ⟨paths, webhooks, schemas, sdkVariables, servers, tags⟩

def scope (options : Options) (reserved : List String) (d : ApiDocument) : Scope where
  resolver := .ofDocument d options
  path := []
  reserved := reserved.map Text.lowerAscii
  security := d.security

def assemble (title : String) (description : Option String)
    (securitySchemes : Entries Ir.SecurityScheme) (d : ApiDocument) (findings : List Ir.Finding)
    (marks : List String) (parts : Parts) : Ir.File where
  title
  description
  servers := parts.servers
  tags := tags parts.tags parts.paths.endpoints
  endpoints := parts.paths.endpoints
  webhooks := parts.paths.webhooks ++ parts.webhooks
  schemas := Discriminant.stripAll (Discriminant.ofDocument d) parts.schemas
  securitySchemes
  hasEndpointsMarkedInternal := parts.paths.endpoints.any Ir.Endpoint.isInternal
  errors := findings
  nonRequestReferencedSchemas := sortedSet marks
  dependencies := []
  sdkVariables := parts.sdkVariables

def securitySchemes (d : ApiDocument) : Entries SecuritySchemeNode :=
  match d.components with
  | some c => c.securitySchemes
  | none => []

end DocumentLowering

open DocumentLowering in
/-- The intermediate representation of a document. -/
def ApiDocument.lower (options : Options) (d : ApiDocument) : Except LoweringError Ir.File :=
  match d.info with
  | none => .error .missingInfo
  | some info =>
    match info.title with
    | none => .error .missingTitle
    | some title =>
      let schemes := securitySchemes d
      let supported := SecurityLowering.supported schemes
      let resolved := d.resolveConflicts options.contentConflict
      let conflicts := (d.conflicts options.contentConflict).filter ContentConflict.diverged
      let reserved := SecurityLowering.reserved (Entries.values supported)
      let report := lowerParts (scope options reserved resolved) resolved
      let findings :=
        SecurityLowering.findings schemes ++ conflicts.map DocumentLowering.diverged
          ++ report.findings
      report.outcome.map
        (assemble title info.description supported resolved findings report.marks)

-- How often each pointer occurs in a document after the elections between representations.
def ApiDocument.referenceCounts (policy : ConflictPolicy) (d : ApiDocument) : Entries Nat :=
  ReferenceCount.count (d.resolveConflicts policy).toJson.canonical

end ApiLowering
