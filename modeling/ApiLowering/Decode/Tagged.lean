import ApiLowering.Decode.Record

/-!
Decoders for maps in which one entry, the tag, tells how to read the others. Such a node may also be
given as a list that starts with the tag.
-/

set_option autoImplicit false

namespace ApiLowering.Reader

-- Reads the entries of a tagged map: the tag, and the others held, the last one first.
def splitTag (mode : Mode) (tagName : String) (tag : Reader String) :
    List (Key × Tree) → Option String → List (Key × Tree) →
      Except DecodeError (Option String × List (Key × Tree))
  | [], found, others => .ok (found, others)
  | (key, node) :: rest, found, others => do
    let key ←
      match mode with
      | .streamed _ => Tree.heldKey key
      | .held => pure key
    if key = .text tagName then
      if found.isSome then .error (.duplicateField tagName)
      else splitTag mode tagName tag rest (some (← tag mode node)) others
    else
      let held ← node.holdIn mode
      splitTag mode tagName tag rest found ((key, held) :: others)

-- A tagged node; `content` reads what stands beside the tag, held, as the tag tells it to.
def tagged {α : Type} (label tagName : String) (known : List String) (fallback : Bool)
    (content : String → Reader α) : Reader α := fun mode node =>
  let tag := variant known fallback
  match node with
  | .map entries stop => do
    let (found, others) ← splitTag mode tagName tag entries none []
    Tree.stopped stop
    match found with
    | some name => content name .held (.map others.reverse none)
    | none => .error (.missingField tagName)
  | .list (first :: rest) stop => do
    let name ← tag mode first
    let rest ← if mode.isStreamed then Tree.holdList rest else pure rest
    Tree.stopped stop
    content name .held (.list rest none)
  | .list [] stop => do
    Tree.stopped stop
    .error (.missingField tagName)
  | other => other.mismatch ("internally tagged enum " ++ label)

-- The content of a variant without fields: a map is passed over, a list must be empty.
def nothing {α : Type} (result : α) : Reader α := fun mode node =>
  match node with
  | .list (_ :: rest) _ => .error (.surplus (rest.length + 1) 0 mode)
  | .list [] _ => .ok result
  | .map _ _ => .ok result
  | other => other.mismatch "unit variant"

end ApiLowering.Reader
