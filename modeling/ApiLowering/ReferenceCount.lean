import ApiLowering.Json.Basic

/-!
How often each pointer occurs in a tree. An object with a text under `$ref` is a reference; what
else it holds is not looked at.
-/

set_option autoImplicit false

namespace ApiLowering.ReferenceCount

def pointer? (entries : Entries Json) : Option String :=
  match Entries.get? "$ref" entries with
  | some (.text pointer) => some pointer
  | _ => none

mutual
def pointers : Json → List String
  | .list items => pointersInList items
  | .object entries =>
    match pointer? entries with
    | some pointer => [pointer]
    | none => pointersInEntries entries
  | _ => []

def pointersInList : List Json → List String
  | [] => []
  | item :: rest => pointers item ++ pointersInList rest

def pointersInEntries : List (String × Json) → List String
  | [] => []
  | (_, value) :: rest => pointers value ++ pointersInEntries rest
end

def increment (counts : Entries Nat) (pointer : String) : Entries Nat :=
  Entries.putSorted pointer ((Entries.get? pointer counts).getD 0 + 1) counts

def count (tree : Json) : Entries Nat := (pointers tree).foldl increment []

end ApiLowering.ReferenceCount
