import ApiLowering.Document.Schema.Encode

/-!
Parameters of operations.
-/

set_option autoImplicit false

namespace ApiLowering

inductive ParameterLocation where
  | query
  | header
  | path
  | cookie
deriving DecidableEq, Repr

structure Parameter where
  name : String
  location : ParameterLocation
  description : Option String
  required : Bool
  deprecated : Option Bool
  schema : Option SchemaNode
  extensions : Entries Json

inductive ParameterNode where
  | reference (target : String)
  | inline (parameter : Parameter)
  | invalid (value : Json)

namespace ParameterLocation

def name : ParameterLocation → String
  | .query => "query"
  | .header => "header"
  | .path => "path"
  | .cookie => "cookie"

def all : List ParameterLocation := [.query, .header, .path, .cookie]

def read : Reader ParameterLocation := fun mode node =>
  (Reader.choice (all.map name) false mode node).map fun n =>
    (all.find? fun l => l.name = n).getD .query

end ParameterLocation

namespace Parameter

def record : Record Parameter :=
  { name := "Parameter"
    fields := [
      Field.required "name" Reader.text fun v p => { p with name := v },
      Field.required "in" ParameterLocation.read fun v p => { p with location := v },
      Field.optional "description" Reader.text fun v p => { p with description := v },
      Field.defaulted "required" Reader.bool fun v p => { p with required := v },
      Field.optional "deprecated" Reader.bool fun v p => { p with deprecated := v },
      Field.optional "schema" SchemaNode.read fun v p => { p with schema := v }]
    blank := ⟨"", .query, none, false, none, none, []⟩ }

def read : Reader Parameter := record.readExtended fun extensions p => { p with extensions }

def toJson (p : Parameter) : Json :=
  .object ([("name", .text p.name), ("in", .text p.location.name)]
    ++ Json.optionEntry "description" (p.description.map .text)
    ++ [("required", .bool p.required)]
    ++ Json.optionEntry "deprecated" (p.deprecated.map .bool)
    ++ Json.optionEntry "schema" (p.schema.map SchemaNode.toJson)
    ++ p.extensions)

end Parameter

namespace ParameterNode

def read : Reader ParameterNode := Reader.lenient .reference Parameter.read .inline .invalid

def toJson : ParameterNode → Json
  | .reference target => Json.reference target
  | .inline p => p.toJson
  | .invalid value => value

def schemas : ParameterNode → List Schema
  | .inline p => SchemaNode.optionSchemas p.schema
  | _ => []

end ParameterNode

end ApiLowering
