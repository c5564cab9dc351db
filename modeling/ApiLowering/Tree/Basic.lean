import ApiLowering.Json.Basic

/-!
Trees as they stand in a text, before anything is decoded: keys in their order with repetitions,
plain scalars with both their text and their value, and the places where reading fails. A tree that
is *held* has been read to its end: no failure is left in it and every plain scalar has its value.
-/

set_option autoImplicit false

namespace ApiLowering

inductive Fault where
  | truncated
  | malformed
deriving DecidableEq, Repr

-- A part that cannot be read. Passing over a part unread checks less, so it may fail differently or
-- not at all.
structure Flaw where
  read : Fault
  skip : Option Fault
deriving DecidableEq, Repr

inductive Scalar where
  | null
  | bool (value : Bool)
  | number (value : Number)
  | text (value : String)
deriving DecidableEq, Repr

-- The key of an entry. A written key has both its text and the value of that text.
inductive Key where
  | text (value : String)
  | written (text : String) (value : Option Scalar)
  | composite
  | unreadable
deriving DecidableEq, Repr

inductive Tree where
  | scalar (value : Scalar)
  -- A plain scalar; without a value when its text contradicts its tag.
  | plain (text : String) (value : Option Scalar)
  | list (items : List Tree) (stop : Option Fault)
  | map (entries : List (Key × Tree)) (stop : Option Fault)
  -- A node with a tag of the application's own.
  | tagged (node : Tree)
  | flawed (flaw : Flaw)
deriving Inhabited

structure Reading where
  root : Tree
  trailing : Option Fault

namespace Tree

def bare : Tree → Tree
  | .tagged node => bare node
  | other => other

mutual
-- The first failure met when the node is passed over unread.
def skipFault : Tree → Option Fault
  | .scalar _ => none
  | .plain _ _ => none
  | .list items stop => (skipList items).or stop
  | .map entries stop => (skipEntries entries).or stop
  | .tagged node => skipFault node
  | .flawed flaw => flaw.skip

def skipList : List Tree → Option Fault
  | [] => none
  | item :: rest => (skipFault item).or (skipList rest)

def skipEntries : List (Key × Tree) → Option Fault
  | [] => none
  | (_, value) :: rest => (skipFault value).or (skipEntries rest)
end

def ofScalar : Json → Scalar
  | .bool b => .bool b
  | .number n => .number n
  | .text s => .text s
  | _ => .null

mutual
def ofJson : Json → Tree
  | .list items => .list (ofJsonList items) none
  | .object entries => .map (ofJsonEntries entries) none
  | other => .scalar (ofScalar other)

def ofJsonList : List Json → List Tree
  | [] => []
  | item :: rest => ofJson item :: ofJsonList rest

def ofJsonEntries : List (String × Json) → List (Key × Tree)
  | [] => []
  | (key, value) :: rest => (.text key, ofJson value) :: ofJsonEntries rest
end

mutual
def height : Tree → Nat
  | .scalar _ => 0
  | .plain _ _ => 0
  | .list items _ => heightList items + 1
  | .map entries _ => heightEntries entries + 1
  | .tagged node => height node + 1
  | .flawed _ => 0

def heightList : List Tree → Nat
  | [] => 0
  | item :: rest => max (height item) (heightList rest)

def heightEntries : List (Key × Tree) → Nat
  | [] => 0
  | (_, value) :: rest => max (height value) (heightEntries rest)
end

end Tree

end ApiLowering
