import ApiLowering.HttpMethod
import ApiLowering.Ir.Schema.Decode
import ApiLowering.Ir.Schema.Encode

/-!
Endpoints and webhooks of the intermediate representation.
-/

set_option autoImplicit false

namespace ApiLowering.Ir

structure Parameter where
  name : NameVariants
  schema : Schema
  required : Bool
  description : Option String
  variableReference : Option String

inductive MultipartKind where
  | file (isArray : Bool) (contentType : Option String)
  | field (schema : Schema)

structure MultipartProperty where
  key : String
  name : NameVariants
  kind : MultipartKind
  required : Bool
  description : Option String

inductive Request where
  | json (contentType : String) (schema : Schema) (description : Option String) (required : Bool)
  | multipart (contentType : String) (properties : List MultipartProperty)
      (description : Option String) (required : Bool)
  | bytes (contentType : String) (description : Option String) (required : Bool)

-- The answer to a successful call. A streaming response describes one event.
inductive Response where
  | json (statusCode : UInt16) (schema : Schema) (description : Option String)
  | file (statusCode : UInt16) (description : Option String)
  | text (statusCode : UInt16) (description : Option String)
  | streaming (statusCode : UInt16) (schema : Schema) (description : Option String)

structure ErrorResponse where
  statusCode : UInt16
  name : NameVariants
  schema : Option Schema
  description : Option String

structure Endpoint where
  method : HttpMethod
  path : String
  operationId : Option String
  name : NameVariants
  sdkGroupName : List String
  summary : Option String
  description : Option String
  tags : List String
  audiences : List String
  pathParameters : List Parameter
  queryParameters : List Parameter
  headers : List Parameter
  request : Option Request
  response : Option Response
  errorResponses : List ErrorResponse
  authed : Bool
  security : List (Entries (List String))
  isInternal : Bool
  deprecated : Bool

structure Webhook where
  method : HttpMethod
  path : String
  operationId : Option String
  name : NameVariants
  summary : Option String
  description : Option String
  tags : List String
  headers : List Parameter
  payload : Schema

def blankName : NameVariants := NameVariants.record.blank

def blankSchema : Schema := .unknown Meta.blank

def descriptionEntry (description : Option String) : List (String × Json) :=
  Json.optionEntry "description" (description.map .text)

def ofStatus (status : UInt16) : Json := Json.ofNat status.toNat

namespace Parameter

def record : Record Parameter :=
  { name := "IrParameter"
    fields := [
      Field.required "name" NameVariants.read fun v p => { p with name := v },
      Field.required "schema" Schema.read fun v p => { p with schema := v },
      Field.required "required" Reader.bool fun v p => { p with required := v },
      Field.lenient "description" Reader.text fun v p => { p with description := v },
      Field.lenient "variableReference" Reader.text fun v p => { p with variableReference := v }]
    blank := ⟨blankName, blankSchema, false, none, none⟩ }

def toJson (p : Parameter) : Json :=
  .object ([("name", p.name.toJson), ("schema", p.schema.toJson), ("required", .bool p.required)]
    ++ descriptionEntry p.description
    ++ Json.optionEntry "variableReference" (p.variableReference.map .text))

end Parameter

namespace MultipartKind

def fileRecord : Record (Bool × Option String) :=
  { name := "variant IrMultipartPropertyKind::File"
    fields := [
      Field.required "isArray" Reader.bool fun v f => (v, f.2),
      Field.lenient "contentType" Reader.text fun v f => (f.1, v)]
    blank := (false, none) }

def fieldRecord : Record Schema :=
  { name := "variant IrMultipartPropertyKind::Field"
    fields := [Field.required "schema" Schema.read fun v _ => v]
    blank := blankSchema }

def read : Reader MultipartKind :=
  Reader.tagged "IrMultipartPropertyKind" "type" ["file", "field"] false fun kind mode node =>
    match kind with
    | "file" => (fileRecord.read mode node).map fun f => .file f.1 f.2
    | _ => (fieldRecord.read mode node).map .field

def toJson : MultipartKind → Json
  | .file isArray contentType =>
    .object ([("type", .text "file"), ("isArray", .bool isArray)]
      ++ Json.optionEntry "contentType" (contentType.map .text))
  | .field schema => .object [("type", .text "field"), ("schema", schema.toJson)]

end MultipartKind

namespace MultipartProperty

def record : Record MultipartProperty :=
  { name := "IrMultipartProperty"
    fields := [
      Field.required "key" Reader.text fun v p => { p with key := v },
      Field.required "name" NameVariants.read fun v p => { p with name := v },
      Field.required "kind" MultipartKind.read fun v p => { p with kind := v },
      Field.required "required" Reader.bool fun v p => { p with required := v },
      Field.lenient "description" Reader.text fun v p => { p with description := v }]
    blank := ⟨"", blankName, .field blankSchema, false, none⟩ }

def toJson (p : MultipartProperty) : Json :=
  .object ([("key", .text p.key), ("name", p.name.toJson), ("kind", p.kind.toJson),
      ("required", .bool p.required)]
    ++ descriptionEntry p.description)

end MultipartProperty

structure BodyFields where
  contentType : String
  statusCode : UInt16
  schema : Schema
  properties : List MultipartProperty
  description : Option String
  required : Bool

namespace BodyFields

def contentTypeField : Field BodyFields :=
  Field.required "contentType" Reader.text fun v b => { b with contentType := v }

def statusCodeField : Field BodyFields :=
  Field.required "statusCode" Reader.uint16 fun v b => { b with statusCode := v }

def schemaField : Field BodyFields :=
  Field.required "schema" Schema.read fun v b => { b with schema := v }

def propertiesField : Field BodyFields :=
  Field.required "properties" (Reader.list MultipartProperty.record.read)
    fun v b => { b with properties := v }

def descriptionField : Field BodyFields :=
  Field.lenient "description" Reader.text fun v b => { b with description := v }

def requiredField : Field BodyFields :=
  Field.required "required" Reader.bool fun v b => { b with required := v }

def record (name : String) (fields : List (Field BodyFields)) : Record BodyFields :=
  { name := "variant " ++ name, fields, blank := ⟨"", 0, blankSchema, [], none, false⟩ }

end BodyFields

open BodyFields in
def Request.read : Reader Request :=
  Reader.tagged "IrRequest" "type" ["json", "multipart", "bytes"] false fun kind mode node =>
    match kind with
    | "json" =>
      ((record "IrRequest::Json"
        [contentTypeField, schemaField, descriptionField, requiredField]).read mode node).map
          fun b => .json b.contentType b.schema b.description b.required
    | "multipart" =>
      ((record "IrRequest::Multipart"
        [contentTypeField, propertiesField, descriptionField, requiredField]).read mode node).map
          fun b => .multipart b.contentType b.properties b.description b.required
    | _ =>
      ((record "IrRequest::Bytes"
        [contentTypeField, descriptionField, requiredField]).read mode node).map
          fun b => .bytes b.contentType b.description b.required

def Request.toJson : Request → Json
  | .json contentType schema description required =>
    .object ([("type", .text "json"), ("contentType", .text contentType),
        ("schema", schema.toJson)]
      ++ descriptionEntry description ++ [("required", .bool required)])
  | .multipart contentType properties description required =>
    .object ([("type", .text "multipart"), ("contentType", .text contentType),
        ("properties", .list (properties.map MultipartProperty.toJson))]
      ++ descriptionEntry description ++ [("required", .bool required)])
  | .bytes contentType description required =>
    .object ([("type", .text "bytes"), ("contentType", .text contentType)]
      ++ descriptionEntry description ++ [("required", .bool required)])

open BodyFields in
def Response.read : Reader Response :=
  Reader.tagged "IrResponse" "type" ["json", "file", "text", "streaming"] false
    fun kind mode node =>
      match kind with
      | "json" =>
        ((record "IrResponse::Json"
          [statusCodeField, schemaField, descriptionField]).read mode node).map
            fun b => .json b.statusCode b.schema b.description
      | "file" =>
        ((record "IrResponse::File" [statusCodeField, descriptionField]).read mode node).map
          fun b => .file b.statusCode b.description
      | "text" =>
        ((record "IrResponse::Text" [statusCodeField, descriptionField]).read mode node).map
          fun b => .text b.statusCode b.description
      | _ =>
        ((record "IrResponse::Streaming"
          [statusCodeField, schemaField, descriptionField]).read mode node).map
            fun b => .streaming b.statusCode b.schema b.description

def Response.toJson : Response → Json
  | .json status schema description =>
    .object ([("type", .text "json"), ("statusCode", ofStatus status), ("schema", schema.toJson)]
      ++ descriptionEntry description)
  | .file status description =>
    .object ([("type", .text "file"), ("statusCode", ofStatus status)]
      ++ descriptionEntry description)
  | .text status description =>
    .object ([("type", .text "text"), ("statusCode", ofStatus status)]
      ++ descriptionEntry description)
  | .streaming status schema description =>
    .object ([("type", .text "streaming"), ("statusCode", ofStatus status),
        ("schema", schema.toJson)]
      ++ descriptionEntry description)

namespace ErrorResponse

def record : Record ErrorResponse :=
  { name := "IrErrorResponse"
    fields := [
      Field.required "statusCode" Reader.uint16 fun v e => { e with statusCode := v },
      Field.required "name" NameVariants.read fun v e => { e with name := v },
      Field.lenient "schema" Schema.read fun v e => { e with schema := v },
      Field.lenient "description" Reader.text fun v e => { e with description := v }]
    blank := ⟨0, blankName, none, none⟩ }

def toJson (e : ErrorResponse) : Json :=
  .object ([("statusCode", ofStatus e.statusCode), ("name", e.name.toJson)]
    ++ Json.optionEntry "schema" (e.schema.map Schema.toJson)
    ++ descriptionEntry e.description)

end ErrorResponse

namespace Endpoint

def record : Record Endpoint :=
  let parameters := Reader.list Parameter.record.read
  { name := "IrEndpoint"
    fields := [
      Field.required "method" HttpMethod.read fun v e => { e with method := v },
      Field.required "path" Reader.text fun v e => { e with path := v },
      Field.lenient "operationId" Reader.text fun v e => { e with operationId := v },
      Field.required "name" NameVariants.read fun v e => { e with name := v },
      Field.defaulted "sdkGroupName" (Reader.list Reader.text)
        fun v e => { e with sdkGroupName := v },
      Field.lenient "summary" Reader.text fun v e => { e with summary := v },
      Field.lenient "description" Reader.text fun v e => { e with description := v },
      Field.required "tags" (Reader.list Reader.text) fun v e => { e with tags := v },
      Field.defaulted "audiences" (Reader.list Reader.text) fun v e => { e with audiences := v },
      Field.required "pathParameters" parameters fun v e => { e with pathParameters := v },
      Field.required "queryParameters" parameters fun v e => { e with queryParameters := v },
      Field.required "headers" parameters fun v e => { e with headers := v },
      Field.lenient "request" Request.read fun v e => { e with request := v },
      Field.lenient "response" Response.read fun v e => { e with response := v },
      Field.required "errorResponses" (Reader.list ErrorResponse.record.read)
        fun v e => { e with errorResponses := v },
      Field.required "authed" Reader.bool fun v e => { e with authed := v },
      Field.required "security" (Reader.list (Reader.entries (Reader.list Reader.text)))
        fun v e => { e with security := v },
      Field.required "internal" Reader.bool fun v e => { e with isInternal := v },
      Field.required "deprecated" Reader.bool fun v e => { e with deprecated := v }]
    blank := ⟨.get, "", none, blankName, [], none, none, [], [], [], [], [], none, none, [], false,
      [], false, false⟩ }

def toJson (e : Endpoint) : Json :=
  let parameters (ps : List Parameter) : Json := .list (ps.map Parameter.toJson)
  .object ([("method", .text e.method.name), ("path", .text e.path)]
    ++ Json.optionEntry "operationId" (e.operationId.map .text)
    ++ [("name", e.name.toJson)]
    ++ Json.listEntry "sdkGroupName" (e.sdkGroupName.map .text)
    ++ Json.optionEntry "summary" (e.summary.map .text)
    ++ descriptionEntry e.description
    ++ [("tags", Json.texts e.tags)]
    ++ Json.listEntry "audiences" (e.audiences.map .text)
    ++ [("pathParameters", parameters e.pathParameters),
      ("queryParameters", parameters e.queryParameters),
      ("headers", parameters e.headers)]
    ++ Json.optionEntry "request" (e.request.map Request.toJson)
    ++ Json.optionEntry "response" (e.response.map Response.toJson)
    ++ [("errorResponses", .list (e.errorResponses.map ErrorResponse.toJson)),
      ("authed", .bool e.authed),
      ("security", .list (e.security.map fun r => .object (Entries.mapValues Json.texts r))),
      ("internal", .bool e.isInternal),
      ("deprecated", .bool e.deprecated)])

end Endpoint

namespace Webhook

def record : Record Webhook :=
  { name := "IrWebhook"
    fields := [
      Field.required "method" HttpMethod.read fun v w => { w with method := v },
      Field.required "path" Reader.text fun v w => { w with path := v },
      Field.lenient "operationId" Reader.text fun v w => { w with operationId := v },
      Field.required "name" NameVariants.read fun v w => { w with name := v },
      Field.lenient "summary" Reader.text fun v w => { w with summary := v },
      Field.lenient "description" Reader.text fun v w => { w with description := v },
      Field.required "tags" (Reader.list Reader.text) fun v w => { w with tags := v },
      Field.required "headers" (Reader.list Parameter.record.read)
        fun v w => { w with headers := v },
      Field.required "payload" Schema.read fun v w => { w with payload := v }]
    blank := ⟨.get, "", none, blankName, none, none, [], [], blankSchema⟩ }

def toJson (w : Webhook) : Json :=
  .object ([("method", .text w.method.name), ("path", .text w.path)]
    ++ Json.optionEntry "operationId" (w.operationId.map .text)
    ++ [("name", w.name.toJson)]
    ++ Json.optionEntry "summary" (w.summary.map .text)
    ++ descriptionEntry w.description
    ++ [("tags", Json.texts w.tags), ("headers", .list (w.headers.map Parameter.toJson)),
      ("payload", w.payload.toJson)])

end Webhook

end ApiLowering.Ir
