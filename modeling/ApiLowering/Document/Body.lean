import ApiLowering.Document.Schema.Encode

/-!
Bodies of requests and responses by media type.
-/

set_option autoImplicit false

namespace ApiLowering

structure PartEncoding where
  contentType : Option String
  extensions : Entries Json

structure MediaType where
  schema : Option SchemaNode
  encoding : Entries PartEncoding
  extensions : Entries Json

structure RequestBody where
  description : Option String
  content : Entries MediaType
  required : Bool
  extensions : Entries Json

inductive RequestBodyNode where
  | reference (target : String)
  | inline (body : RequestBody)
  | invalid (value : Json)

structure Response where
  description : Option String
  content : Entries MediaType
  extensions : Entries Json

inductive ResponseNode where
  | reference (target : String)
  | inline (response : Response)
  | invalid (value : Json)

namespace PartEncoding

def record : Record PartEncoding :=
  { name := "Encoding"
    fields := [Field.optional "contentType" Reader.text fun v e => { e with contentType := v }]
    blank := ⟨none, []⟩ }

def read : Reader PartEncoding := record.readExtended fun extensions e => { e with extensions }

def toJson (e : PartEncoding) : Json :=
  .object (Json.optionEntry "contentType" (e.contentType.map .text) ++ e.extensions)

end PartEncoding

namespace MediaType

def record : Record MediaType :=
  { name := "MediaType"
    fields := [
      Field.optional "schema" SchemaNode.read fun v m => { m with schema := v },
      Field.defaulted "encoding" (Reader.entries PartEncoding.read)
        fun v m => { m with encoding := v }]
    blank := ⟨none, [], []⟩ }

def read : Reader MediaType := record.readExtended fun extensions m => { m with extensions }

def toJson (m : MediaType) : Json :=
  .object (Json.optionEntry "schema" (m.schema.map SchemaNode.toJson)
    ++ Json.mapEntry "encoding" (Entries.mapValues PartEncoding.toJson m.encoding)
    ++ m.extensions)

def contentSchemas (content : Entries MediaType) : List Schema :=
  content.flatMap fun e => SchemaNode.optionSchemas e.2.schema

end MediaType

namespace RequestBody

def record : Record RequestBody :=
  { name := "RequestBody"
    fields := [
      Field.optional "description" Reader.text fun v b => { b with description := v },
      Field.defaulted "content" (Reader.entries MediaType.read) fun v b => { b with content := v },
      Field.defaulted "required" Reader.bool fun v b => { b with required := v }]
    blank := ⟨none, [], false, []⟩ }

def read : Reader RequestBody := record.readExtended fun extensions b => { b with extensions }

def toJson (b : RequestBody) : Json :=
  .object (Json.optionEntry "description" (b.description.map .text)
    ++ [("content", .object (Entries.mapValues MediaType.toJson b.content)),
      ("required", .bool b.required)]
    ++ b.extensions)

end RequestBody

namespace RequestBodyNode

def read : Reader RequestBodyNode := Reader.lenient .reference RequestBody.read .inline .invalid

def toJson : RequestBodyNode → Json
  | .reference target => Json.reference target
  | .inline b => b.toJson
  | .invalid value => value

def schemas : RequestBodyNode → List Schema
  | .inline b => MediaType.contentSchemas b.content
  | _ => []

end RequestBodyNode

namespace Response

def record : Record Response :=
  { name := "Response"
    fields := [
      Field.optional "description" Reader.text fun v r => { r with description := v },
      Field.defaulted "content" (Reader.entries MediaType.read) fun v r => { r with content := v }]
    blank := ⟨none, [], []⟩ }

def read : Reader Response := record.readExtended fun extensions r => { r with extensions }

def toJson (r : Response) : Json :=
  .object (Json.optionEntry "description" (r.description.map .text)
    ++ Json.mapEntry "content" (Entries.mapValues MediaType.toJson r.content)
    ++ r.extensions)

end Response

namespace ResponseNode

def read : Reader ResponseNode := Reader.lenient .reference Response.read .inline .invalid

def toJson : ResponseNode → Json
  | .reference target => Json.reference target
  | .inline r => r.toJson
  | .invalid value => value

def schemas : ResponseNode → List Schema
  | .inline r => MediaType.contentSchemas r.content
  | _ => []

end ResponseNode

end ApiLowering
