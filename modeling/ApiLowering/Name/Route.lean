import ApiLowering.Name.Casing

/-!
Names for operations that declare none, derived from their method and path.
-/

set_option autoImplicit false

namespace ApiLowering.Name

open Text

-- The singular of an English plural, by its ending.
def singular (word : List Char) : List Char :=
  match dropTail? "ies".toList word with
  | some (c :: stem) => (c :: stem) ++ ['y']
  | _ =>
    match dropTail? "ses".toList word, dropTail? "xes".toList word, dropTail? "zes".toList word with
    | some stem, _, _ => stem ++ ['s']
    | _, some stem, _ => stem ++ ['x']
    | _, _, some stem => stem ++ ['z']
    | _, _, _ =>
      match dropTail? ['s'] word with
      | some stem => if stem.isEmpty || endsWith ['s'] stem then word else stem
      | none => word

def opensParameter (segment : List Char) : Bool := startsWith ['\x7b'] segment

def isParameter (segment : List Char) : Bool :=
  opensParameter segment && endsWith ['\x7d'] segment

-- The verb of a method; reading one item differs from reading a collection.
def verb (method : String) (onItem : Bool) : String :=
  match lowerAscii method with
  | "get" => if onItem then "get" else "list"
  | "post" => "create"
  | "put" => "update"
  | "delete" => "delete"
  | "patch" => "patch"
  | "options" => "options"
  | "head" => "head"
  | "trace" => "trace"
  | _ => "call"

-- The static segments in Pascal case, the last one in the singular when an item is meant.
def resourceName (onItem : Bool) : List (List Char) → String
  | [] => ""
  | [last] => pascalCase (if onItem then singular last else last)
  | segment :: rest => pascalCase segment ++ resourceName onItem rest

-- For instance reading `/users/` followed by a parameter is named `getUser`.
def ofRoute (method path : String) : String :=
  let segments := (split '/' path.toList).filter fun s => !s.isEmpty
  let onItem := segments.getLast?.any isParameter
  verb method onItem ++ resourceName onItem (segments.filter fun s => !opensParameter s)

end ApiLowering.Name
