import ApiLowering.Json.Basic

/-!
Entries of objects whose fields may be left out.
-/

set_option autoImplicit false

namespace ApiLowering.Json

def optionEntry (key : String) (value : Option Json) : List (String × Json) :=
  match value with
  | some v => [(key, v)]
  | none => []

def listEntry (key : String) (items : List Json) : List (String × Json) :=
  if items.isEmpty then [] else [(key, .list items)]

def mapEntry (key : String) (entries : List (String × Json)) : List (String × Json) :=
  if entries.isEmpty then [] else [(key, .object entries)]

def trueEntry (key : String) (flag : Bool) : List (String × Json) :=
  if flag then [(key, .bool true)] else []

def ofUInt64 (n : UInt64) : Json := ofNat n.toNat

def reference (target : String) : Json := .object [("$ref", .text target)]

end ApiLowering.Json
