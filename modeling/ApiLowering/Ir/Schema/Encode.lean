import ApiLowering.Ir.Schema.Basic
import ApiLowering.Json.Entry

/-!
The JSON form of schemas of the intermediate representation, with the entries in a fixed order.
-/

set_option autoImplicit false

namespace ApiLowering

def NameVariants.toJson (n : NameVariants) : Json :=
  .object [("originalValue", .text n.originalValue), ("wireValue", .text n.wireValue),
    ("camelCase", .text n.camelCase), ("pascalCase", .text n.pascalCase),
    ("snakeCase", .text n.snakeCase), ("screamingSnakeCase", .text n.screamingSnakeCase)]

namespace Ir

open Json (optionEntry listEntry trueEntry)

def Meta.entries (m : Meta) : List (String × Json) :=
  optionEntry "description" (m.description.map .text) ++ trueEntry "nullable" m.nullable
    ++ trueEntry "optional" m.optional

def StringConstraints.entries (c : StringConstraints) : List (String × Json) :=
  optionEntry "format" (c.format.map .text) ++ optionEntry "pattern" (c.pattern.map .text)
    ++ optionEntry "minLength" (c.minLength.map Json.ofUInt64)
    ++ optionEntry "maxLength" (c.maxLength.map Json.ofUInt64)

def NumberConstraints.entries (c : NumberConstraints) : List (String × Json) :=
  optionEntry "minimum" (c.minimum.map Json.ofReal)
    ++ optionEntry "maximum" (c.maximum.map Json.ofReal)

def PrimitiveType.toJson (t : PrimitiveType) : Json :=
  let form (kind : String) (entries : List (String × Json)) : Json :=
    .object (("kind", .text kind) :: entries)
  match t with
  | .string c => form "string" c.entries
  | .int c => form "int" c.entries
  | .int64 c => form "int64" c.entries
  | .float c => form "float" c.entries
  | .double c => form "double" c.entries
  | .boolean => form "boolean" []
  | .date => form "date" []
  | .dateTime => form "dateTime" []
  | .base64 => form "base64" []
  | .binary => form "binary" []

def PrimitiveSchema.entries (p : PrimitiveSchema) : List (String × Json) :=
  p.info.entries ++ [("value", p.value.toJson)]

def EnumValue.toJson (v : EnumValue) : Json :=
  .object ([("name", v.name.toJson), ("value", .text v.value)]
    ++ optionEntry "description" (v.description.map .text))

def nameEntry (name : Option NameVariants) : List (String × Json) :=
  optionEntry "name" (name.map NameVariants.toJson)

namespace Schema

mutual
def toJson : Schema → Json
  | .object { name, info, properties, parents, conflicts, additionalProperties } =>
    .object ([("type", .text "object")] ++ nameEntry name ++ info.entries
      ++ [("properties", .list (propertiesToJson properties)),
        ("extends", Json.texts parents),
        ("allOfPropertyConflicts", .list (conflictsToJson conflicts))]
      ++ trueEntry "additionalProperties" additionalProperties)
  | .union { name, info, discriminant, baseProperties, variants } =>
    .object ([("type", .text "union")] ++ nameEntry name ++ info.entries
      ++ optionEntry "discriminant" (discriminant.map .text)
      ++ listEntry "baseProperties" (propertiesToJson baseProperties)
      ++ [("variants", .list (variantsToJson variants))])
  | .enumeration e =>
    .object ([("type", .text "enum")] ++ nameEntry e.name ++ e.info.entries
      ++ [("values", .list (e.values.map EnumValue.toJson))])
  | .primitive p => .object (("type", .text "primitive") :: p.entries)
  | .array info items =>
    .object ([("type", .text "array")] ++ info.entries ++ [("items", toJson items)])
  | .map info value =>
    .object ([("type", .text "map")] ++ info.entries ++ [("value", toJson value)])
  | .reference info schemaId =>
    .object ([("type", .text "reference")] ++ info.entries ++ [("schemaId", .text schemaId)])
  | .unknown info => .object ([("type", .text "unknown")] ++ info.entries)

def propertiesToJson : List (Property Schema) → List Json
  | [] => []
  | ⟨key, name, schema, required⟩ :: rest =>
    .object [("key", .text key), ("name", name.toJson), ("schema", toJson schema),
      ("required", .bool required)] :: propertiesToJson rest

def variantsToJson : List (Variant Schema) → List Json
  | [] => []
  | ⟨value, schema⟩ :: rest =>
    .object (optionEntry "discriminantValue" (value.map NameVariants.toJson)
      ++ [("schema", toJson schema)]) :: variantsToJson rest

def conflictsToJson : List (PropertyConflict Schema) → List Json
  | [] => []
  | ⟨key, existing, conflicting⟩ :: rest =>
    .object [("propertyKey", .text key), ("existing", toJson existing),
      ("conflicting", toJson conflicting)] :: conflictsToJson rest
end

end Schema

end Ir

end ApiLowering
