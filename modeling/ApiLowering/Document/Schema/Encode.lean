import ApiLowering.Document.Schema.Decode
import ApiLowering.Json.Entry

/-!
The JSON form of schema nodes. Absent keywords, and empty lists and maps, are left out.
-/

set_option autoImplicit false

namespace ApiLowering

def SchemaType.name : SchemaType → String
  | .string => "string"
  | .number => "number"
  | .integer => "integer"
  | .boolean => "boolean"
  | .array => "array"
  | .object => "object"
  | .null => "null"
  | .unsupported => "unsupported"

def TypeSet.toJson : TypeSet → Json
  | .single type => .text type.name
  | .multiple types => .list (types.map fun type => .text type.name)

def Discriminator.toJson (d : Discriminator) : Json :=
  .object ([("propertyName", .text d.propertyName)]
    ++ Json.mapEntry "mapping" (Entries.mapValues .text d.mapping))

namespace SchemaNode

mutual
def toJson : SchemaNode → Json
  | .reference target => Json.reference target
  | .inline s => .object (keywordEntries s)
  | .invalid value => value

def keywordEntries : Keywords SchemaNode → List (String × Json)
  | { type, format, title, description, nullable, properties, required, additionalProperties,
      items, allOf, oneOf, anyOf, discriminator, enumValues, constValue, minimum, maximum,
      minLength, maxLength, pattern, extensions } =>
    Json.optionEntry "type" (type.map TypeSet.toJson)
      ++ Json.optionEntry "format" (format.map .text)
      ++ Json.optionEntry "title" (title.map .text)
      ++ Json.optionEntry "description" (description.map .text)
      ++ Json.optionEntry "nullable" (nullable.map .bool)
      ++ Json.mapEntry "properties" (entriesToJson properties)
      ++ Json.listEntry "required" (required.map .text)
      ++ Json.optionEntry "additionalProperties" (additionalToJson additionalProperties)
      ++ Json.optionEntry "items" (optionToJson items)
      ++ Json.listEntry "allOf" (listToJson allOf)
      ++ Json.listEntry "oneOf" (listToJson oneOf)
      ++ Json.listEntry "anyOf" (listToJson anyOf)
      ++ Json.optionEntry "discriminator" (discriminator.map Discriminator.toJson)
      ++ Json.listEntry "enum" enumValues
      ++ Json.optionEntry "const" constValue
      ++ Json.optionEntry "minimum" (minimum.map Json.ofReal)
      ++ Json.optionEntry "maximum" (maximum.map Json.ofReal)
      ++ Json.optionEntry "minLength" (minLength.map Json.ofUInt64)
      ++ Json.optionEntry "maxLength" (maxLength.map Json.ofUInt64)
      ++ Json.optionEntry "pattern" (pattern.map .text)
      ++ extensions

def entriesToJson : List (String × SchemaNode) → List (String × Json)
  | [] => []
  | (key, node) :: rest => (key, toJson node) :: entriesToJson rest

def listToJson : List SchemaNode → List Json
  | [] => []
  | node :: rest => toJson node :: listToJson rest

def optionToJson : Option SchemaNode → Option Json
  | none => none
  | some node => some (toJson node)

def additionalToJson : Option (Additional SchemaNode) → Option Json
  | none => none
  | some (.allowed b) => some (.bool b)
  | some (.schema node) => some (toJson node)
end

end SchemaNode

end ApiLowering
