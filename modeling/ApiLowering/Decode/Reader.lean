import ApiLowering.Decode.Error
import ApiLowering.Tree.PlainScalar

/-!
Decoders for scalars, lists, maps and optional nodes.
-/

set_option autoImplicit false

namespace ApiLowering

abbrev Reader (α : Type) : Type := Mode → Tree → Except DecodeError α

namespace Tree

def found (node : Tree) : Except DecodeError Found :=
  match node.bare with
  | .scalar s => .ok (Found.ofScalar s)
  | .plain _ (some s) => .ok (Found.ofScalar s)
  | .list _ _ => .ok .sequence
  | .map _ _ => .ok .map
  | .flawed flaw => .error (.fault flaw.read)
  | _ => .error .unreadable

def mismatch {α : Type} (expected : String) (node : Tree) : Except DecodeError α :=
  node.found.bind fun found => .error (.invalidType found expected)

def stopped (stop : Option Fault) : Except DecodeError Unit :=
  match stop with
  | some fault => .error (.fault fault)
  | none => .ok ()

def skipped (node : Tree) : Except DecodeError Unit := stopped node.skipFault

def heldKey : Key → Except DecodeError Key
  | .written _ (some (.text s)) => .ok (.text s)
  | .written _ none => .error .unreadable
  | .unreadable => .error (.fault .malformed)
  | other => .ok other

mutual
-- Reads a node to its end and gives plain scalars their values. Tags of the application's own are
-- refused.
def hold : Tree → Except DecodeError Tree
  | .scalar s => .ok (.scalar s)
  | .plain _ (some s) => .ok (.scalar s)
  | .plain _ none => .error .unreadable
  | .list items stop => do
    let items ← holdList items
    stopped stop
    return .list items none
  | .map entries stop => do
    let entries ← holdEntries entries
    stopped stop
    return .map entries none
  | .tagged _ => .error .unreadable
  | .flawed flaw => .error (.fault flaw.read)

def holdList : List Tree → Except DecodeError (List Tree)
  | [] => .ok []
  | item :: rest => do
    let item ← hold item
    let rest ← holdList rest
    return item :: rest

def holdEntries : List (Key × Tree) → Except DecodeError (List (Key × Tree))
  | [] => .ok []
  | (key, value) :: rest => do
    let key ← heldKey key
    let value ← hold value
    let rest ← holdEntries rest
    return (key, value) :: rest
end

def holdIn (mode : Mode) (node : Tree) : Except DecodeError Tree :=
  match mode with
  | .streamed _ => node.hold
  | .held => .ok node

end Tree

namespace Key

-- The text of a key; a held key that is not a text has none.
def read (mode : Mode) : Key → Except DecodeError String
  | .text s => .ok s
  | .written s value =>
    match mode with
    | .streamed _ => .ok s
    | .held =>
      match value with
      | some v => .error (.invalidType (Found.ofScalar v) "a string")
      | none => .error .unreadable
  | .composite => .error .unreadable
  | .unreadable => .error (.fault .malformed)

end Key

namespace Reader

def text : Reader String := fun mode node =>
  match node.bare, mode with
  | .scalar (.text s), _ => .ok s
  | .plain s _, .streamed _ => .ok s
  | other, _ => other.mismatch "a string"

def bool : Reader Bool := fun _ node =>
  match node.bare with
  | .scalar (.bool b) => .ok b
  | .plain s _ =>
    match PlainScalar.bool? s.toList with
    | some b => .ok b
    | none => node.mismatch "a boolean"
  | other => other.mismatch "a boolean"

def number (expected : String) (node : Tree) : Except DecodeError Number :=
  match node.bare with
  | .scalar (.number n) => .ok n
  | .plain s _ =>
    match PlainScalar.resolve s with
    | some (.number n) => .ok n
    | _ => node.mismatch expected
  | other => other.mismatch expected

def unsigned (expected : String) (bound : Nat) : Reader Nat := fun _ node => do
  match ← number expected node with
  | .integer n =>
    if 0 ≤ n ∧ n < bound then .ok n.toNat
    else .error (.invalidValue (.integer n) expected)
  | .real x => .error (.invalidType (.real x) expected)

def uint16 : Reader UInt16 := fun mode node =>
  (unsigned "u16" UInt16.size mode node).map UInt16.ofNat

def uint64 : Reader UInt64 := fun mode node =>
  (unsigned "u64" UInt64.size mode node).map UInt64.ofNat

def size : Reader Nat := unsigned "usize" UInt64.size

def real : Reader Binary64 := fun _ node => do
  match ← number "f64" node with
  | .integer n => return Binary64.ofInt n
  | .real x => return x

-- An empty plain scalar stands for an empty list or map while a text is being read.
def isVoid (node : Tree) : Bool :=
  match node with
  | .plain "" _ => true
  | _ => false

def each {α : Type} (item : Tree → Except DecodeError α) : List Tree → Except DecodeError (List α)
  | [] => .ok []
  | node :: rest => do
    let first ← item node
    let more ← each item rest
    return first :: more

def list {α : Type} (item : Reader α) : Reader (List α) := fun mode node =>
  match node.bare with
  | .list items stop => do
    let items ← each (item mode) items
    Tree.stopped stop
    return items
  | other => if isVoid other then .ok [] else other.mismatch "a sequence"

def eachEntry {α : Type} (mode : Mode) (value : Tree → Except DecodeError α) :
    List (Key × Tree) → Except DecodeError (Entries α)
  | [] => .ok []
  | (key, node) :: rest => do
    let key ← key.read mode
    let first ← value node
    let more ← eachEntry mode value rest
    return (key, first) :: more

-- Keyed values in the order of the text; under a repeated key the last value counts.
def entries {α : Type} (value : Reader α) : Reader (Entries α) := fun mode node =>
  match node.bare with
  | .map entries stop => do
    let entries ← eachEntry mode (value mode) entries
    Tree.stopped stop
    return Entries.collect entries
  | other => if isVoid other then .ok [] else other.mismatch "a map"

def optional {α : Type} (value : Reader α) : Reader (Option α) := fun mode node =>
  match node with
  | .scalar .null | .plain _ (some .null) => .ok none
  | _ => (value mode node).map some

-- The name of a variant. A held variant may also be given by its number.
def variant (known : List String) (fallback : Bool) : Reader String := fun mode node =>
  let checked (name : String) : Except DecodeError String :=
    if known.contains name || fallback then .ok name
    else .error (.unknownVariant name known)
  match node.bare, mode with
  | .scalar (.text s), _ => checked s
  | .plain s _, .streamed _ => checked s
  | .scalar (.number (.integer n)), .held =>
    if n < 0 then .error (.invalidType (.integer n) "variant identifier")
    else
      match known[n.toNat]? with
      | some name => .ok name
      | none =>
        if fallback then .ok ""
        else
          .error (.invalidValue (.integer n) ("variant index 0 <= i < " ++ toString known.length))
  | other, _ => other.mismatch "variant identifier"

def unit : Reader Unit := fun _ node =>
  match node.bare with
  | .scalar .null => .ok ()
  | other => other.mismatch "unit"

-- One of several names, as a text or as a map with the name as its only key and null under it.
def choice (known : List String) (fallback : Bool) : Reader String := fun mode node =>
  match node.bare, mode with
  | .map [(key, value)] stop, _ => do
    match key with
    | .written _ _ => if mode.isStreamed then .error .unreadable
    | _ => pure ()
    let name ← key.read mode
    let name ← variant known fallback mode (.scalar (.text name))
    unit mode value
    Tree.stopped stop
    return name
  | .map [] (some fault), _ => .error (.fault fault)
  | .map _ _, _ => .error (.notSingleKey mode)
  | .scalar (.text _), _ => variant known fallback mode node
  | .plain _ _, .streamed _ => variant known fallback mode node
  | other, _ => other.found.bind fun found => .error (.notVariant found mode)

def ofScalar : Scalar → Json
  | .null => .null
  | .bool b => .bool b
  | .number (.integer n) => .number (.integer n)
  | .number (.real x) => Json.ofReal x
  | .text s => .text s

mutual
-- A value of no particular type, with ascending keys. Doubles without a JSON text are null.
def value (mode : Mode) : Tree → Except DecodeError Json
  | .scalar s => .ok (ofScalar s)
  | .plain _ (some s) => .ok (ofScalar s)
  | .plain _ none => .error .unreadable
  | .list items stop => do
    let items ← valueList mode items
    Tree.stopped stop
    return .list items
  | .map entries stop => do
    let entries ← valueEntries mode entries
    Tree.stopped stop
    return .object (Entries.sort entries)
  | .tagged _ => .error .unreadable
  | .flawed flaw => .error (.fault flaw.read)

def valueList (mode : Mode) : List Tree → Except DecodeError (List Json)
  | [] => .ok []
  | item :: rest => do
    let item ← value mode item
    let rest ← valueList mode rest
    return item :: rest

def valueEntries (mode : Mode) : List (Key × Tree) → Except DecodeError (List (String × Json))
  | [] => .ok []
  | (key, item) :: rest => do
    let key ← key.read mode
    let item ← value mode item
    let rest ← valueEntries mode rest
    return (key, item) :: rest
end

end Reader

end ApiLowering
