import ApiLowering.Entries
import ApiLowering.Yaml.Token

/-!
The nodes of a YAML document. An anchor numbers the node that carries it; an alias stands for the
node that carries the number of its anchor.
-/

set_option autoImplicit false

namespace ApiLowering.Yaml

inductive Node where
  | scalar (text : String) (isPlain : Bool) (tag : Option String)
  | list (items : List Node) (tag : Option String)
  | map (entries : List (Node × Node)) (tag : Option String)
  | anchored (number : Nat) (node : Node)
  | alias (number : Nat)
deriving Inhabited

inductive Content where
  | empty
  | document (root : Node)

namespace Grammar

-- What is left of the tokens, the numbers of the anchors met, and the meaning of tag handles.
structure State where
  tokens : List Token
  anchors : Entries Nat
  handles : Entries String

abbrev Parser : Type → Type := StateT State Option

def blank : Node := .scalar "" true none

def peek : Parser (Option Token) := do return (← get).tokens.head?

def skip : Parser Unit := modify fun s => { s with tokens := s.tokens.tail }

def expect (token : Token) : Parser Unit := do
  if (← peek) = some token then skip else failure

-- Numbers an anchor by how many names were known before; a name may be used again.
def numberAnchor (name : String) : Parser Nat := do
  let s ← get
  let number := s.anchors.length
  set { s with anchors := Entries.put name number s.anchors }
  return number

def defaultHandles : Entries String := [("!", "!"), ("!!", "tag:yaml.org,2002:")]

def resolveTag (handle suffix : String) : Parser String := do
  if handle.isEmpty then return suffix
  else
    let s ← get
    match (Entries.get? handle s.handles).or (Entries.get? handle defaultHandles) with
    | some lead => return lead ++ suffix
    | none => failure

structure Properties where
  anchor : Option String
  tag : Option String

-- An anchor and a tag in either order, each at most once.
def properties : Parser Properties := do
  match ← peek with
  | some (.anchor name) =>
    skip
    match ← peek with
    | some (.tag handle suffix) =>
      skip
      return ⟨some name, some (← resolveTag handle suffix)⟩
    | _ => return ⟨some name, none⟩
  | some (.tag handle suffix) =>
    skip
    let tag ← resolveTag handle suffix
    match ← peek with
    | some (.anchor name) =>
      skip
      return ⟨some name, some tag⟩
    | _ => return ⟨none, some tag⟩
  | _ => return ⟨none, none⟩

-- Parses a node unless one of the given tokens comes next, which leave it empty.
def unlessNext (ends : List Token) (node : Parser Node) : Parser Node := do
  match ← peek with
  | some token => if ends.contains token then return blank else node
  | none => node

mutual
-- A node. Block nodes start blocks, and where `indentless` holds a list may start without a block
-- of its own.
def node : Nat → (inBlock indentless : Bool) → Parser Node
  | 0, _, _ => failure
  | fuel + 1, inBlock, indentless => do
    match ← peek with
    | some (.alias name) =>
      skip
      match Entries.get? name (← get).anchors with
      | some number => return .alias number
      | none => failure
    | _ =>
      let p ← properties
      match p.anchor with
      | some name => do
        let number ← numberAnchor name
        return .anchored number (← content fuel inBlock indentless p)
      | none => content fuel inBlock indentless p

def content : Nat → (inBlock indentless : Bool) → Properties → Parser Node
  | 0, _, _, _ => failure
  | fuel + 1, inBlock, indentless, p => do
    match ← peek with
    | some (.scalar text isPlain) =>
      skip
      return .scalar text isPlain (if p.tag = some "!" then none else p.tag)
    | some .openList =>
      skip
      return .list (← flowItems fuel true) p.tag
    | some .openMap =>
      skip
      return .map (← flowEntries fuel true) p.tag
    | some .item =>
      if indentless then return .list (← indentlessItems fuel) p.tag
      else if p.anchor.isSome || p.tag.isSome then return .scalar "" true p.tag
      else failure
    | some .openBlockList =>
      if inBlock then
        skip
        return .list (← blockItems fuel) p.tag
      else if p.anchor.isSome || p.tag.isSome then return .scalar "" true p.tag
      else failure
    | some .openBlockMap =>
      if inBlock then
        skip
        return .map (← blockEntries fuel) p.tag
      else if p.anchor.isSome || p.tag.isSome then return .scalar "" true p.tag
      else failure
    | _ => if p.anchor.isSome || p.tag.isSome then return .scalar "" true p.tag else failure

def blockItems : Nat → Parser (List Node)
  | 0 => failure
  | fuel + 1 => do
    match ← peek with
    | some .item =>
      skip
      let first ← unlessNext [.item, .closeBlock] (node fuel true false)
      return first :: (← blockItems fuel)
    | some .closeBlock =>
      skip
      return []
    | _ => failure

def indentlessItems : Nat → Parser (List Node)
  | 0 => failure
  | fuel + 1 => do
    match ← peek with
    | some .item =>
      skip
      let first ← unlessNext [.item, .key, .value, .closeBlock] (node fuel true false)
      return first :: (← indentlessItems fuel)
    | _ => return []

def blockEntries : Nat → Parser (List (Node × Node))
  | 0 => failure
  | fuel + 1 => do
    match ← peek with
    | some .key =>
      skip
      let ends := [.key, .value, .closeBlock]
      let key ← unlessNext ends (node fuel true true)
      let value ← (do
        match ← peek with
        | some .value =>
          skip
          unlessNext ends (node fuel true true)
        | _ => return blank : Parser Node)
      return (key, value) :: (← blockEntries fuel)
    | some .closeBlock =>
      skip
      return []
    | _ => failure

-- The items of a list in brackets; all but the first follow a comma.
def flowItems : Nat → (first : Bool) → Parser (List Node)
  | 0, _ => failure
  | fuel + 1, first => do
    if (← peek) = some .closeList then
      skip
      return []
    else
      if !first then expect .comma
      match ← peek with
      | some .closeList =>
        skip
        return []
      | some .key =>
        skip
        let entry ← singleEntry fuel
        return .map [entry] none :: (← flowItems fuel false)
      | _ =>
        let item ← node fuel false false
        return item :: (← flowItems fuel false)

-- An entry that stands for a map of its own within a list in brackets.
def singleEntry : Nat → Parser (Node × Node)
  | 0 => failure
  | fuel + 1 => do
    let key ← (do
      match ← peek with
      | some .value | some .comma | some .closeList =>
        skip
        return blank
      | _ => node fuel false false : Parser Node)
    match ← peek with
    | some .value =>
      skip
      return (key, ← unlessNext [.comma, .closeList] (node fuel false false))
    | _ => return (key, blank)

-- The entries of a map in braces; all but the first follow a comma.
def flowEntries : Nat → (first : Bool) → Parser (List (Node × Node))
  | 0, _ => failure
  | fuel + 1, first => do
    if (← peek) = some .closeMap then
      skip
      return []
    else
      if !first then expect .comma
      match ← peek with
      | some .closeMap =>
        skip
        return []
      | some .key =>
        skip
        let key ← unlessNext [.value, .comma, .closeMap] (node fuel false false)
        let value ← (do
          match ← peek with
          | some .value =>
            skip
            unlessNext [.comma, .closeMap] (node fuel false false)
          | _ => return blank : Parser Node)
        return (key, value) :: (← flowEntries fuel false)
      | _ =>
        let key ← node fuel false false
        return (key, blank) :: (← flowEntries fuel false)
end

-- Directives before a document, up to `fuel` of them. A version may be declared once, and so may
-- each handle.
def directives : Nat → (declared : Bool) → Parser Unit
  | 0, _ => failure
  | fuel + 1, declared => do
    match ← peek with
    | some (.version major minor) =>
      if declared || major ≠ 1 || (minor ≠ 1 && minor ≠ 2) then failure
      else
        skip
        directives fuel true
    | some (.tagHandle handle lead) =>
      let s ← get
      if Entries.contains handle s.handles then failure
      else
        set { s with handles := s.handles ++ [(handle, lead)] }
        skip
        directives fuel declared
    | _ => return ()

-- The root of a document that its first node opens, or a mark after directives.
def root (fuel : Nat) : Parser Node := do
  match ← peek with
  | some (.version _ _) | some (.tagHandle _ _) | some .documentStart =>
    directives fuel false
    expect .documentStart
    match ← peek with
    | none | some (.version _ _) | some (.tagHandle _ _) | some .documentStart
    | some .documentEnd => return blank
    | _ => node fuel true false
  | _ => node fuel true false

def documentEnds : List Token → List Token := List.dropWhile (· == .documentEnd)

def content? (tokens : List Token) : Option Content :=
  if tokens.isEmpty then some .empty
  else do
    let (root, s) ← (root (4 * tokens.length + 4)).run ⟨tokens, [], []⟩
    if (documentEnds s.tokens).isEmpty then return .document root else none

end Grammar

end ApiLowering.Yaml
