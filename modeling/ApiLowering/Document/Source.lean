import ApiLowering.Document.Basic
import ApiLowering.Tree.JsonText

/-!
Reading documents from trees and texts. A document tells the version of its format, and only the
third major version is supported.
-/

set_option autoImplicit false

namespace ApiLowering

namespace Reading

-- Decodes the tree of a text; what stands behind the tree must be blank.
def decode {α : Type} (reading : Reading) (mode : Mode) (reader : Reader α) :
    Except DecodeError α := do
  let value ← reader mode reading.root
  Tree.stopped reading.trailing
  return value

end Reading

inductive DocumentFormat where
  | json
  | yaml
deriving DecidableEq, Repr

def DocumentFormat.name : DocumentFormat → String
  | .json => "JSON"
  | .yaml => "YAML"

inductive DocumentError where
  | decode (format : DocumentFormat) (error : DecodeError)
  | unsupportedVersion (version : String)
deriving DecidableEq, Repr

namespace DocumentError

def message : DocumentError → String
  | .decode format error => "failed to parse " ++ format.name ++ ": " ++ error.message
  | .unsupportedVersion version => "unsupported OpenAPI version: " ++ version

end DocumentError

namespace ApiDocument

-- Every version whose first component is three is supported.
def supported (format : DocumentFormat) (decoded : Except DecodeError ApiDocument) :
    Except DocumentError ApiDocument :=
  match decoded with
  | .error e => .error (.decode format e)
  | .ok d =>
    if Text.startsWith "3.".toList d.openapi.toList then .ok d
    else .error (.unsupportedVersion d.openapi)

def ofJson (value : Json) : Except DocumentError ApiDocument :=
  supported .json (read .json (Tree.ofJson value))

def ofJsonText (text : String) : Except DocumentError ApiDocument :=
  supported .json ((JsonText.read text).decode .json read)

end ApiDocument

end ApiLowering
