import ApiLowering.Document.Schema.Basic
import ApiLowering.Decode.Lenient

/-!
Decoding of schema nodes.
-/

set_option autoImplicit false

namespace ApiLowering

namespace SchemaType

-- The types by their names; any other name is an unsupported type.
def named : Entries SchemaType :=
  [("string", .string), ("number", .number), ("integer", .integer), ("boolean", .boolean),
    ("array", .array), ("object", .object), ("null", .null)]

def ofName (name : String) : SchemaType := (Entries.get? name named).getD .unsupported

def read : Reader SchemaType := fun mode node =>
  (Reader.choice (Entries.keys named ++ ["unsupported"]) true mode node).map ofName

end SchemaType

def TypeSet.read : Reader TypeSet := fun mode node =>
  match SchemaType.read mode node with
  | .ok type => .ok (.single type)
  | .error _ => (Reader.list SchemaType.read mode node).map .multiple

namespace Discriminator

def record : Record Discriminator :=
  { name := "Discriminator"
    fields := [
      Field.required "propertyName" Reader.text fun v d => { d with propertyName := v },
      Field.defaulted "mapping" (Reader.entries Reader.text) fun v d => { d with mapping := v }]
    blank := ⟨"", []⟩ }

end Discriminator

namespace SchemaNode

def readAdditional (node : Reader SchemaNode) : Reader (Additional SchemaNode) := fun mode tree =>
  match Reader.bool mode tree with
  | .ok b => .ok (.allowed b)
  | .error _ => (node mode tree).map .schema

def record (node : Reader SchemaNode) : Record Schema :=
  { name := "Schema"
    fields := [
      Field.optional "type" TypeSet.read fun v s => { s with type := v },
      Field.optional "format" Reader.text fun v s => { s with format := v },
      Field.optional "title" Reader.text fun v s => { s with title := v },
      Field.optional "description" Reader.text fun v s => { s with description := v },
      Field.optional "nullable" Reader.bool fun v s => { s with nullable := v },
      Field.defaulted "properties" (Reader.entries node) fun v s => { s with properties := v },
      Field.defaulted "required" (Reader.list Reader.text) fun v s => { s with required := v },
      Field.optional "additionalProperties" (readAdditional node)
        fun v s => { s with additionalProperties := v },
      Field.optional "items" node fun v s => { s with items := v },
      Field.defaulted "allOf" (Reader.list node) fun v s => { s with allOf := v },
      Field.defaulted "oneOf" (Reader.list node) fun v s => { s with oneOf := v },
      Field.defaulted "anyOf" (Reader.list node) fun v s => { s with anyOf := v },
      Field.optional "discriminator" Discriminator.record.read
        fun v s => { s with discriminator := v },
      Field.defaulted "enum" (Reader.list Reader.value) fun v s => { s with enumValues := v },
      Field.optional "const" Reader.value fun v s => { s with constValue := v },
      Field.optional "minimum" Reader.real fun v s => { s with minimum := v },
      Field.optional "maximum" Reader.real fun v s => { s with maximum := v },
      Field.optional "minLength" Reader.uint64 fun v s => { s with minLength := v },
      Field.optional "maxLength" Reader.uint64 fun v s => { s with maxLength := v },
      Field.optional "pattern" Reader.text fun v s => { s with pattern := v }]
    blank := Keywords.empty }

def schema (node : Reader SchemaNode) : Reader Schema :=
  (record node).readExtended fun extensions s => { s with extensions }

-- Reads a node that nests at most `levels` deep.
def readWithin : Nat → Reader SchemaNode
  | 0 => fun mode tree => (Reader.value mode tree).map .invalid
  | levels + 1 => Reader.lenient .reference (schema (readWithin levels)) .inline .invalid

def read : Reader SchemaNode := fun mode tree => readWithin (tree.height + 1) mode tree

end SchemaNode

end ApiLowering
