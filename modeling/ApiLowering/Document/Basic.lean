import ApiLowering.Document.Operation

/-!
API documents: what they hold, how they are decoded and written back, and the inline schemas in
them.
-/

set_option autoImplicit false

namespace ApiLowering

structure Info where
  title : Option String
  description : Option String
  version : Option String
  extensions : Entries Json

structure Server where
  url : Option String
  description : Option String
  extensions : Entries Json

structure Tag where
  name : Option String
  description : Option String
deriving DecidableEq, Repr

structure Components where
  schemas : Entries SchemaNode
  responses : Entries ResponseNode
  parameters : Entries ParameterNode
  requestBodies : Entries RequestBodyNode
  securitySchemes : Entries SecuritySchemeNode
  extensions : Entries Json

-- A path item may be null, and then holds nothing.
structure ApiDocument where
  openapi : String
  info : Option Info
  servers : List Server
  paths : Entries (Option PathItem)
  webhooks : Entries (Option PathItem)
  components : Option Components
  tags : List Tag
  security : Option (List SecurityRequirement)
  extensions : Entries Json

namespace Info

def record : Record Info :=
  { name := "Info"
    fields := [
      Field.optional "title" Reader.text fun v i => { i with title := v },
      Field.optional "description" Reader.text fun v i => { i with description := v },
      Field.optional "version" Reader.text fun v i => { i with version := v }]
    blank := ⟨none, none, none, []⟩ }

def read : Reader Info := record.readExtended fun extensions i => { i with extensions }

def toJson (i : Info) : Json :=
  .object (Json.optionEntry "title" (i.title.map .text)
    ++ Json.optionEntry "description" (i.description.map .text)
    ++ Json.optionEntry "version" (i.version.map .text)
    ++ i.extensions)

end Info

namespace Server

def record : Record Server :=
  { name := "Server"
    fields := [
      Field.optional "url" Reader.text fun v s => { s with url := v },
      Field.optional "description" Reader.text fun v s => { s with description := v }]
    blank := ⟨none, none, []⟩ }

def read : Reader Server := record.readExtended fun extensions s => { s with extensions }

def toJson (s : Server) : Json :=
  .object (Json.optionEntry "url" (s.url.map .text)
    ++ Json.optionEntry "description" (s.description.map .text)
    ++ s.extensions)

end Server

namespace Tag

def record : Record Tag :=
  { name := "Tag"
    fields := [
      Field.optional "name" Reader.text fun v t => { t with name := v },
      Field.optional "description" Reader.text fun v t => { t with description := v }]
    blank := ⟨none, none⟩ }

def toJson (t : Tag) : Json :=
  .object (Json.optionEntry "name" (t.name.map .text)
    ++ Json.optionEntry "description" (t.description.map .text))

end Tag

namespace Components

def record : Record Components :=
  { name := "Components"
    fields := [
      Field.defaulted "schemas" (Reader.entries SchemaNode.read) fun v c => { c with schemas := v },
      Field.defaulted "responses" (Reader.entries ResponseNode.read)
        fun v c => { c with responses := v },
      Field.defaulted "parameters" (Reader.entries ParameterNode.read)
        fun v c => { c with parameters := v },
      Field.defaulted "requestBodies" (Reader.entries RequestBodyNode.read)
        fun v c => { c with requestBodies := v },
      Field.defaulted "securitySchemes" (Reader.entries SecuritySchemeNode.read)
        fun v c => { c with securitySchemes := v }]
    blank := ⟨[], [], [], [], [], []⟩ }

def read : Reader Components := record.readExtended fun extensions c => { c with extensions }

def toJson (c : Components) : Json :=
  .object (Json.mapEntry "schemas" (Entries.mapValues SchemaNode.toJson c.schemas)
    ++ Json.mapEntry "responses" (Entries.mapValues ResponseNode.toJson c.responses)
    ++ Json.mapEntry "parameters" (Entries.mapValues ParameterNode.toJson c.parameters)
    ++ Json.mapEntry "requestBodies" (Entries.mapValues RequestBodyNode.toJson c.requestBodies)
    ++ Json.mapEntry "securitySchemes"
      (Entries.mapValues SecuritySchemeNode.toJson c.securitySchemes)
    ++ c.extensions)

def inlineSchemas (c : Components) : List Schema :=
  (Entries.values c.schemas).flatMap SchemaNode.inlineSchemas
    ++ (Entries.values c.parameters).flatMap ParameterNode.schemas
    ++ (Entries.values c.requestBodies).flatMap RequestBodyNode.schemas
    ++ (Entries.values c.responses).flatMap ResponseNode.schemas

end Components

namespace ApiDocument

def record : Record ApiDocument :=
  { name := "OpenApiDocument"
    fields := [
      Field.required "openapi" Reader.text fun v d => { d with openapi := v },
      Field.optional "info" Info.read fun v d => { d with info := v },
      Field.defaulted "servers" (Reader.list Server.read) fun v d => { d with servers := v },
      Field.defaulted "paths" (Reader.entries (Reader.optional PathItem.read))
        fun v d => { d with paths := v },
      Field.defaulted "webhooks" (Reader.entries (Reader.optional PathItem.read))
        fun v d => { d with webhooks := v },
      Field.optional "components" Components.read fun v d => { d with components := v },
      Field.defaulted "tags" (Reader.list Tag.record.read) fun v d => { d with tags := v },
      Field.optional "security" (Reader.list SecurityRequirement.read)
        fun v d => { d with security := v }]
    blank := ⟨"", none, [], [], [], none, [], none, []⟩ }

def read : Reader ApiDocument := record.readExtended fun extensions d => { d with extensions }

def pathsToJson (items : Entries (Option PathItem)) : List (String × Json) :=
  Entries.mapValues (fun item => (item.map PathItem.toJson).getD .null) items

def toJson (d : ApiDocument) : Json :=
  .object ([("openapi", .text d.openapi)]
    ++ Json.optionEntry "info" (d.info.map Info.toJson)
    ++ Json.listEntry "servers" (d.servers.map Server.toJson)
    ++ Json.mapEntry "paths" (pathsToJson d.paths)
    ++ Json.mapEntry "webhooks" (pathsToJson d.webhooks)
    ++ Json.optionEntry "components" (d.components.map Components.toJson)
    ++ Json.listEntry "tags" (d.tags.map Tag.toJson)
    ++ Json.optionEntry "security"
      (d.security.map fun s => .list (s.map SecurityRequirement.toJson))
    ++ d.extensions)

-- Every inline schema of the document, in order, without following references.
def inlineSchemas (d : ApiDocument) : List Schema :=
  (Entries.values d.paths ++ Entries.values d.webhooks).flatMap
      (fun item => item.toList.flatMap PathItem.schemas)
    ++ d.components.toList.flatMap Components.inlineSchemas

def componentSchemas (d : ApiDocument) : Entries SchemaNode :=
  match d.components with
  | some c => c.schemas
  | none => []

end ApiDocument

end ApiLowering
