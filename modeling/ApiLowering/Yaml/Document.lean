import ApiLowering.Document.Source
import ApiLowering.Tree.PlainScalar
import ApiLowering.Yaml.Node

/-!
The tree of a YAML text. Aliases are replaced by the nodes that they stand for, as long as no node
is nested too deep and not too many aliases are followed.
-/

set_option autoImplicit false

namespace ApiLowering.Yaml

-- The numbered nodes, in the order in which they start.
abbrev Anchors : Type := List (Nat × Node)

mutual
def anchorsOf : Node → Anchors
  | .scalar _ _ _ => []
  | .list items _ => anchorsOfList items
  | .map entries _ => anchorsOfEntries entries
  | .anchored number node => (number, node) :: anchorsOf node
  | .alias _ => []

def anchorsOfList : List Node → Anchors
  | [] => []
  | item :: rest => anchorsOf item ++ anchorsOfList rest

def anchorsOfEntries : List (Node × Node) → Anchors
  | [] => []
  | (key, value) :: rest => anchorsOf key ++ anchorsOf value ++ anchorsOfEntries rest
end

-- The node that an alias stands for; of several with one number, the last.
def anchored? (anchors : Anchors) (number : Nat) : Option Node :=
  (anchors.reverse.find? fun a => a.1 = number).map Prod.snd

-- The value of a scalar. Tags of the core types decide how the text is read; other tags that start
-- with an exclamation mark are the application's own.
def scalarTree (text : String) (isPlain : Bool) (tag : Option String) : Tree :=
  let untagged : Tree :=
    if isPlain then .plain text (PlainScalar.resolve text) else .scalar (.text text)
  match tag with
  | none => untagged
  | some tag =>
    if Text.startsWith ['!'] tag.toList then .tagged untagged
    else
      match (Text.dropLead? "tag:yaml.org,2002:".toList tag.toList).map String.ofList with
      | some "bool" => .plain text (PlainScalar.resolveAs "bool" text)
      | some "int" => .plain text (PlainScalar.resolveAs "int" text)
      | some "float" => .plain text (PlainScalar.resolveAs "float" text)
      | some "null" => .plain text (PlainScalar.resolveAs "null" text)
      | _ => if isPlain then .plain text (some (.text text)) else .scalar (.text text)

def withTag (tag : Option String) (tree : Tree) : Tree :=
  if tag.any fun t => Text.startsWith ['!'] t.toList then .tagged tree else tree

-- The key of a map entry: only scalars name one.
def keyOf (tree : Tree) : Key :=
  match tree with
  | .scalar (.text s) => .written s (some (.text s))
  | .plain s value => .written s value
  | .tagged (.plain s _) => .written s none
  | .tagged (.scalar (.text s)) => .written s none
  | _ => .composite

abbrev Expansion : Type → Type := StateT Nat Option

def eachNode (expand : Node → Expansion Tree) : List Node → Expansion (List Tree)
  | [] => return []
  | item :: rest => do
    let first ← expand item
    return first :: (← eachNode expand rest)

def eachEntry (expand : Node → Expansion Tree) :
    List (Node × Node) → Expansion (List (Key × Tree))
  | [] => return []
  | (key, value) :: rest => do
    let key ← expand key
    let value ← expand value
    return (keyOf key, value) :: (← eachEntry expand rest)

-- A node that is no alias, given how nested nodes are expanded.
def expandNode (expand : Option (Node → Expansion Tree)) : Node → Expansion Tree
  | .scalar text isPlain tag => return scalarTree text isPlain tag
  | .list items tag =>
    match expand with
    | some expand => do return withTag tag (.list (← eachNode expand items) none)
    | none => failure
  | .map entries tag =>
    match expand with
    | some expand => do return withTag tag (.map (← eachEntry expand entries) none)
    | none => failure
  | .anchored _ node => expandNode expand node
  | .alias _ => failure

def follow (anchors : Anchors) (number : Nat) : Expansion Node := do
  match ← get with
  | 0 => failure
  | left + 1 => do
    set left
    anchored? anchors number

def resolveAlias (anchors : Anchors) : Node → Expansion Node
  | .alias number => follow anchors number
  | other => return other

def expand (anchors : Anchors) : (depth : Nat) → Node → Expansion Tree
  | 0, node => do expandNode none (← resolveAlias anchors node)
  | depth + 1, node => do expandNode (some (expand anchors depth)) (← resolveAlias anchors node)

mutual
-- How many nodes begin and lists and maps end in a node.
def eventCount : Node → Nat
  | .scalar _ _ _ => 1
  | .list items _ => eventCountList items + 2
  | .map entries _ => eventCountEntries entries + 2
  | .anchored _ node => eventCount node
  | .alias _ => 1

def eventCountList : List Node → Nat
  | [] => 0
  | item :: rest => eventCount item + eventCountList rest

def eventCountEntries : List (Node × Node) → Nat
  | [] => 0
  | (key, value) :: rest => eventCount key + eventCount value + eventCountEntries rest
end

def depthLimit : Nat := 128

-- So many aliases may be followed for every event of the document.
def repetitionLimit : Nat := 100

def read? (text : String) : Option Tree := do
  match ← Grammar.content? (← tokens? (← cells? text)) with
  | .empty => return .plain "" (some .null)
  | .document root =>
    let limit := repetitionLimit * eventCount root
    let (tree, _) ← (expand (anchorsOf root) depthLimit root).run limit
    return tree

def decode {α : Type} (reader : Reader α) (text : String) : Except DecodeError α :=
  match read? text with
  | some tree => reader .yaml tree
  | none => .error (.fault .malformed)

end ApiLowering.Yaml

namespace ApiLowering.ApiDocument

def ofYaml (text : String) : Except DocumentError ApiDocument :=
  supported .yaml (Yaml.decode read text)

def ofText (format : DocumentFormat) (text : String) : Except DocumentError ApiDocument :=
  match format with
  | .json => ofJsonText text
  | .yaml => ofYaml text

end ApiLowering.ApiDocument
