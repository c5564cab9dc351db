import ApiLowering.Ir.Finding
import ApiLowering.Ir.Operation
import ApiLowering.Ir.Security

/-!
The intermediate representation of one document.
-/

set_option autoImplicit false

namespace ApiLowering.Ir

structure Server where
  url : String
  description : Option String
  name : Option String
deriving DecidableEq, Repr

structure Tag where
  id : String
  description : Option String
deriving DecidableEq, Repr

-- Everything a document lowers to: its operations, schemas and schemes, what was found wrong with
-- it, and the component schemas that something other than a request refers to.
structure File where
  title : String
  description : Option String
  servers : List Server
  tags : Entries Tag
  endpoints : List Endpoint
  webhooks : List Webhook
  schemas : Entries Schema
  securitySchemes : Entries SecurityScheme
  hasEndpointsMarkedInternal : Bool
  errors : List Finding
  nonRequestReferencedSchemas : List String
  dependencies : List String
  sdkVariables : Entries PrimitiveSchema

namespace Server

def record : Record Server :=
  { name := "IrServer"
    fields := [
      Field.required "url" Reader.text fun v s => { s with url := v },
      Field.optional "description" Reader.text fun v s => { s with description := v },
      Field.optional "name" Reader.text fun v s => { s with name := v }]
    blank := ⟨"", none, none⟩ }

def toJson (s : Server) : Json :=
  .object ([("url", .text s.url)] ++ descriptionEntry s.description
    ++ Json.optionEntry "name" (s.name.map .text))

end Server

namespace Tag

def record : Record Tag :=
  { name := "IrTag"
    fields := [
      Field.required "id" Reader.text fun v t => { t with id := v },
      Field.optional "description" Reader.text fun v t => { t with description := v }]
    blank := ⟨"", none⟩ }

def toJson (t : Tag) : Json := .object ([("id", .text t.id)] ++ descriptionEntry t.description)

end Tag

def PrimitiveSchema.toJson (p : PrimitiveSchema) : Json := .object p.entries

namespace File

def record : Record File :=
  { name := "IrOpenApiFile"
    fields := [
      Field.required "title" Reader.text fun v f => { f with title := v },
      Field.optional "description" Reader.text fun v f => { f with description := v },
      Field.required "servers" (Reader.list Server.record.read) fun v f => { f with servers := v },
      Field.required "tags" (Reader.entries Tag.record.read) fun v f => { f with tags := v },
      Field.required "endpoints" (Reader.list Endpoint.record.read)
        fun v f => { f with endpoints := v },
      Field.required "webhooks" (Reader.list Webhook.record.read)
        fun v f => { f with webhooks := v },
      Field.required "schemas" (Reader.entries Schema.read) fun v f => { f with schemas := v },
      Field.required "securitySchemes" (Reader.entries SecurityScheme.read)
        fun v f => { f with securitySchemes := v },
      Field.required "hasEndpointsMarkedInternal" Reader.bool
        fun v f => { f with hasEndpointsMarkedInternal := v },
      Field.required "errors" (Reader.list Finding.record.read) fun v f => { f with errors := v },
      Field.required "nonRequestReferencedSchemas" (Reader.list Reader.text)
        fun v f => { f with nonRequestReferencedSchemas := v },
      Field.required "dependencies" (Reader.list Reader.text)
        fun v f => { f with dependencies := v },
      Field.required "variables" (Reader.entries PrimitiveSchema.read)
        fun v f => { f with sdkVariables := v }]
    blank := ⟨"", none, [], [], [], [], [], [], false, [], [], [], []⟩ }

def read : Reader File := record.read

def toJson (f : File) : Json :=
  .object ([("title", .text f.title)] ++ descriptionEntry f.description
    ++ [("servers", .list (f.servers.map Server.toJson)),
      ("tags", .object (Entries.mapValues Tag.toJson f.tags)),
      ("endpoints", .list (f.endpoints.map Endpoint.toJson)),
      ("webhooks", .list (f.webhooks.map Webhook.toJson)),
      ("schemas", .object (Entries.mapValues Schema.toJson f.schemas)),
      ("securitySchemes", .object (Entries.mapValues SecurityScheme.toJson f.securitySchemes)),
      ("hasEndpointsMarkedInternal", .bool f.hasEndpointsMarkedInternal),
      ("errors", .list (f.errors.map Finding.toJson)),
      ("nonRequestReferencedSchemas", Json.texts f.nonRequestReferencedSchemas),
      ("dependencies", Json.texts f.dependencies),
      ("variables", .object (Entries.mapValues PrimitiveSchema.toJson f.sdkVariables))])

end File

end ApiLowering.Ir
