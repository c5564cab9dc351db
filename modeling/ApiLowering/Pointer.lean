import ApiLowering.Text.Basic

/-!
Pointers to components. In the name of a component a tilde is written `~0` and a slash `~1`.
-/

set_option autoImplicit false

namespace ApiLowering.Pointer

open Text

def escape (id : List Char) : List Char :=
  expand '/' ['~', '1'] (expand '~' ['~', '0'] id)

def unescape (name : List Char) : List Char :=
  contract '~' '0' '~' (contract '~' '1' '/' name)

def ofSchema (id : String) : String :=
  "#/components/schemas/" ++ String.ofList (escape id.toList)

def componentId? (area pointer : String) : Option String :=
  match dropLead? "#/components/".toList pointer.toList with
  | none => none
  | some rest =>
    match split '/' rest with
    | [found, name] =>
      if String.ofList found = area ∧ name ≠ [] then some (String.ofList (unescape name))
      else none
    | _ => none

end ApiLowering.Pointer
