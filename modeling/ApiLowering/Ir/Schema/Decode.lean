import ApiLowering.Ir.Schema.Basic
import ApiLowering.Decode.Tagged

/-!
Decoding of schemas of the intermediate representation.
-/

set_option autoImplicit false

namespace ApiLowering

namespace NameVariants

def record : Record NameVariants :=
  { name := "NameAndWireValue"
    fields := [
      Field.required "originalValue" Reader.text fun v n => { n with originalValue := v },
      Field.required "wireValue" Reader.text fun v n => { n with wireValue := v },
      Field.required "camelCase" Reader.text fun v n => { n with camelCase := v },
      Field.required "pascalCase" Reader.text fun v n => { n with pascalCase := v },
      Field.required "snakeCase" Reader.text fun v n => { n with snakeCase := v },
      Field.required "screamingSnakeCase" Reader.text fun v n => { n with screamingSnakeCase := v }]
    blank := ⟨"", "", "", "", "", ""⟩ }

def read : Reader NameVariants := record.read

end NameVariants

namespace Ir

namespace Meta

def record : Record Meta :=
  { name := "SchemaMeta"
    fields := [
      Field.lenient "description" Reader.text fun v m => { m with description := v },
      Field.defaulted "nullable" Reader.bool fun v m => { m with nullable := v },
      Field.defaulted "optional" Reader.bool fun v m => { m with optional := v }]
    blank := Meta.blank }

-- Reads the flags and the description out of entries that may hold others too.
def ofEntries (entries : List (Key × Tree)) : Except DecodeError Meta :=
  record.read .held (.map entries none)

end Meta

namespace StringConstraints

def record : Record StringConstraints :=
  { name := "StringConstraints"
    fields := [
      Field.lenient "format" Reader.text fun v c => { c with format := v },
      Field.lenient "pattern" Reader.text fun v c => { c with pattern := v },
      Field.lenient "minLength" Reader.uint64 fun v c => { c with minLength := v },
      Field.lenient "maxLength" Reader.uint64 fun v c => { c with maxLength := v }]
    blank := ⟨none, none, none, none⟩ }

end StringConstraints

namespace NumberConstraints

def record : Record NumberConstraints :=
  { name := "NumberConstraints"
    fields := [
      Field.lenient "minimum" Reader.real fun v c => { c with minimum := v },
      Field.lenient "maximum" Reader.real fun v c => { c with maximum := v }]
    blank := ⟨none, none⟩ }

end NumberConstraints

namespace PrimitiveType

def kinds : List String :=
  ["string", "int", "int64", "float", "double", "boolean", "date", "dateTime", "base64", "binary"]

def read : Reader PrimitiveType :=
  Reader.tagged "IrPrimitiveType" "kind" kinds false fun kind mode node =>
    let bounded (make : NumberConstraints → PrimitiveType) :=
      (NumberConstraints.record.read mode node).map make
    match kind with
    | "string" => (StringConstraints.record.read mode node).map .string
    | "int" => bounded .int
    | "int64" => bounded .int64
    | "float" => bounded .float
    | "double" => bounded .double
    | "boolean" => Reader.nothing .boolean mode node
    | "date" => Reader.nothing .date mode node
    | "dateTime" => Reader.nothing .dateTime mode node
    | "base64" => Reader.nothing .base64 mode node
    | _ => Reader.nothing .binary mode node

end PrimitiveType

namespace PrimitiveSchema

def record : Record PrimitiveSchema :=
  { name := "IrPrimitiveSchema"
    fields := [Field.required "value" PrimitiveType.read fun v p => { p with value := v }]
    blank := ⟨Meta.blank, .boolean⟩ }

def read : Reader PrimitiveSchema :=
  record.readWith fun others p => (Meta.ofEntries others).map fun info => { p with info }

end PrimitiveSchema

namespace EnumValue

def record : Record EnumValue :=
  { name := "IrEnumValue"
    fields := [
      Field.required "name" NameVariants.read fun v e => { e with name := v },
      Field.required "value" Reader.text fun v e => { e with value := v },
      Field.lenient "description" Reader.text fun v e => { e with description := v }]
    blank := ⟨NameVariants.record.blank, "", none⟩ }

end EnumValue

namespace EnumSchema

def record : Record EnumSchema :=
  { name := "IrEnumSchema"
    fields := [
      Field.lenient "name" NameVariants.read fun v e => { e with name := v },
      Field.required "values" (Reader.list EnumValue.record.read) fun v e => { e with values := v }]
    blank := ⟨none, Meta.blank, []⟩ }

def read : Reader EnumSchema :=
  record.readWith fun others e => (Meta.ofEntries others).map fun info => { e with info }

end EnumSchema

namespace Schema

def propertyRecord (schema : Reader Schema) : Record (Property Schema) :=
  { name := "IrObjectProperty"
    fields := [
      Field.required "key" Reader.text fun v p => { p with key := v },
      Field.required "name" NameVariants.read fun v p => { p with name := v },
      Field.required "schema" schema fun v p => { p with schema := v },
      Field.required "required" Reader.bool fun v p => { p with required := v }]
    blank := ⟨"", NameVariants.record.blank, .unknown Meta.blank, false⟩ }

def conflictRecord (schema : Reader Schema) : Record (PropertyConflict Schema) :=
  { name := "IrAllOfPropertyConflict"
    fields := [
      Field.required "propertyKey" Reader.text fun v c => { c with propertyKey := v },
      Field.required "existing" schema fun v c => { c with existing := v },
      Field.required "conflicting" schema fun v c => { c with conflicting := v }]
    blank := ⟨"", .unknown Meta.blank, .unknown Meta.blank⟩ }

def variantRecord (schema : Reader Schema) : Record (Variant Schema) :=
  { name := "IrUnionVariant"
    fields := [
      Field.lenient "discriminantValue" NameVariants.read
        fun v u => { u with discriminantValue := v },
      Field.required "schema" schema fun v u => { u with schema := v }]
    blank := ⟨none, .unknown Meta.blank⟩ }

def objectRecord (schema : Reader Schema) : Record (ObjectSchema Schema) :=
  { name := "IrObjectSchema"
    fields := [
      Field.lenient "name" NameVariants.read fun v o => { o with name := v },
      Field.required "properties" (Reader.list (propertyRecord schema).read)
        fun v o => { o with properties := v },
      Field.required "extends" (Reader.list Reader.text) fun v o => { o with parents := v },
      Field.required "allOfPropertyConflicts" (Reader.list (conflictRecord schema).read)
        fun v o => { o with conflicts := v },
      Field.defaulted "additionalProperties" Reader.bool
        fun v o => { o with additionalProperties := v }]
    blank := ⟨none, Meta.blank, [], [], [], false⟩ }

def unionRecord (schema : Reader Schema) : Record (UnionSchema Schema) :=
  { name := "IrUnionSchema"
    fields := [
      Field.lenient "name" NameVariants.read fun v u => { u with name := v },
      Field.lenient "discriminant" Reader.text fun v u => { u with discriminant := v },
      Field.defaulted "baseProperties" (Reader.list (propertyRecord schema).read)
        fun v u => { u with baseProperties := v },
      Field.required "variants" (Reader.list (variantRecord schema).read)
        fun v u => { u with variants := v }]
    blank := ⟨none, Meta.blank, none, [], []⟩ }

-- A record with one required field beside the flags.
def single {α : Type} (name field : String) (reader : Reader α) (make : Meta → α → Schema) :
    Reader Schema := fun mode node => do
  let record : Record (Meta × Option α) :=
    { name, fields := [Field.required field reader fun v p => (p.1, some v)]
      blank := (Meta.blank, none) }
  let finish (others : List (Key × Tree)) (p : Meta × Option α) :=
    (Meta.ofEntries others).map fun info => (info, p.2)
  match ← record.readWith finish mode node with
  | (info, some v) => return make info v
  | (_, none) => .error (.missingField field)

def unknownRecord : Record Meta := { name := "IrUnknownSchema", fields := [], blank := Meta.blank }

def kinds : List String :=
  ["object", "union", "enum", "primitive", "array", "map", "reference", "unknown"]

def readWithin : Nat → Reader Schema
  | 0 => fun _ node => node.mismatch "internally tagged enum IrSchema"
  | levels + 1 =>
    let schema := readWithin levels
    Reader.tagged "IrSchema" "type" kinds false fun kind mode node =>
      match kind with
      | "object" =>
        ((objectRecord schema).readWith
          (fun others o => (Meta.ofEntries others).map fun info => { o with info })
          mode node).map .object
      | "union" =>
        ((unionRecord schema).readWith
          (fun others u => (Meta.ofEntries others).map fun info => { u with info })
          mode node).map .union
      | "enum" => (EnumSchema.read mode node).map .enumeration
      | "primitive" => (PrimitiveSchema.read mode node).map .primitive
      | "array" => single "IrArraySchema" "items" schema .array mode node
      | "map" => single "IrMapSchema" "value" schema .map mode node
      | "reference" => single "IrReferenceSchema" "schemaId" Reader.text .reference mode node
      | _ => (unknownRecord.readWith (fun others _ => Meta.ofEntries others) mode node).map .unknown

def read : Reader Schema := fun mode node => readWithin (node.height + 1) mode node

end Schema

end Ir

end ApiLowering
