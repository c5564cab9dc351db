import ApiLowering.Decode.Record
import ApiLowering.Json.Entry

/-!
Findings: recoverable problems met during the lowering, each with the path of keys that leads to it.
-/

set_option autoImplicit false

namespace ApiLowering.Ir

inductive FindingKind where
  | danglingReference
  | unsupportedReference
  | duplicateEnumValue
  | invalidIdentifier
  | missingDiscriminantValue
  | unsupportedSecurityScheme
  | unsupportedContentType
  | unknownExtension
  | malformedNode
  | contentConflict
  | duplicateEndpoint
deriving DecidableEq, Repr

structure Finding where
  kind : FindingKind
  breadcrumbs : List String
  message : String
deriving DecidableEq, Repr

namespace FindingKind

def name : FindingKind → String
  | .danglingReference => "dangling_reference"
  | .unsupportedReference => "unsupported_reference"
  | .duplicateEnumValue => "duplicate_enum_value"
  | .invalidIdentifier => "invalid_identifier"
  | .missingDiscriminantValue => "missing_discriminant_value"
  | .unsupportedSecurityScheme => "unsupported_security_scheme"
  | .unsupportedContentType => "unsupported_content_type"
  | .unknownExtension => "unknown_extension"
  | .malformedNode => "malformed_node"
  | .contentConflict => "content_conflict"
  | .duplicateEndpoint => "duplicate_endpoint"

def all : List FindingKind :=
  [.danglingReference, .unsupportedReference, .duplicateEnumValue, .invalidIdentifier,
    .missingDiscriminantValue, .unsupportedSecurityScheme, .unsupportedContentType,
    .unknownExtension, .malformedNode, .contentConflict, .duplicateEndpoint]

def ofName? (name : String) : Option FindingKind := all.find? fun k => k.name = name

def read : Reader FindingKind := fun mode node =>
  (Reader.choice (all.map name) false mode node).map fun n => (ofName? n).getD .malformedNode

end FindingKind

namespace Finding

def under (keys : List String) (f : Finding) : Finding :=
  { f with breadcrumbs := keys ++ f.breadcrumbs }

def render (f : Finding) : String :=
  if f.breadcrumbs.isEmpty then f.message
  else " > ".intercalate f.breadcrumbs ++ ": " ++ f.message

def record : Record Finding :=
  { name := "ConversionError"
    fields := [
      Field.required "kind" FindingKind.read fun v f => { f with kind := v },
      Field.required "breadcrumbs" (Reader.list Reader.text) fun v f => { f with breadcrumbs := v },
      Field.required "message" Reader.text fun v f => { f with message := v }]
    blank := ⟨.malformedNode, [], ""⟩ }

def toJson (f : Finding) : Json :=
  .object [("kind", .text f.kind.name), ("breadcrumbs", Json.texts f.breadcrumbs),
    ("message", .text f.message)]

end Finding

end ApiLowering.Ir
