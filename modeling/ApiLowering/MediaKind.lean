import ApiLowering.Text.Basic

/-!
Kinds of media types.
-/

set_option autoImplicit false

namespace ApiLowering

inductive MediaKind where
  | json
  | multipart
  | formUrlEncoded
  | octetStream
  | eventStream
  | text
  | other
deriving DecidableEq, Repr

namespace MediaKind

open Text

def essence (contentType : String) : String :=
  let type := contentType.toList.takeWhile (· ≠ ';')
  String.ofList ((trim type).map Char.toLower)

def ofEssence (essence : String) : MediaKind :=
  match essence with
  | "application/json" => .json
  | "application/x-www-form-urlencoded" => .formUrlEncoded
  | "application/octet-stream" => .octetStream
  | "text/event-stream" => .eventStream
  | e =>
    if endsWith "+json".toList e.toList then .json
    else if startsWith "multipart/".toList e.toList then .multipart
    else if startsWith "text/".toList e.toList then .text
    else .other

def of (contentType : String) : MediaKind := ofEssence (essence contentType)

end MediaKind

end ApiLowering
