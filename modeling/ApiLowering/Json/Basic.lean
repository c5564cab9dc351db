import ApiLowering.Entries
import ApiLowering.Numeric.Shortest

/-!
JSON values. An object keeps its entries in a list; a value is canonical when the keys of every
object ascend.
-/

set_option autoImplicit false

namespace ApiLowering

-- A number written without point and exponent that fits sixty-four bits is an integer, from `-2 ^
-- 63` up to `2 ^ 64 - 1`; any other is a double.
inductive Number where
  | integer (n : Int)
  | real (x : Binary64)
deriving DecidableEq, Repr

namespace Number

def isWord (n : Int) : Bool := -0x8000000000000000 ≤ n ∧ n < 0x10000000000000000

def render : Number → String
  | .integer n => toString n
  | .real x => x.render

def equal : Number → Number → Bool
  | .integer m, .integer n => m = n
  | .real x, .real y => x.equal y
  | _, _ => false

-- A double has no JSON text when it is infinite or not a number.
def ofReal? (x : Binary64) : Option Number := if x.isFinite then some (.real x) else none

end Number

inductive Json where
  | null
  | bool (value : Bool)
  | number (value : Number)
  | text (value : String)
  | list (items : List Json)
  | object (entries : List (String × Json))
deriving Inhabited

namespace Json

mutual
def equal : Json → Json → Bool
  | .null, .null => true
  | .bool a, .bool b => a = b
  | .number a, .number b => a.equal b
  | .text a, .text b => a = b
  | .list a, .list b => equalList a b
  | .object a, .object b => equalEntries a b
  | _, _ => false

def equalList : List Json → List Json → Bool
  | [], [] => true
  | a :: as, b :: bs => equal a b && equalList as bs
  | _, _ => false

def equalEntries : List (String × Json) → List (String × Json) → Bool
  | [], [] => true
  | (j, a) :: as, (k, b) :: bs => j = k && equal a b && equalEntries as bs
  | _, _ => false
end

mutual
def canonical : Json → Json
  | .list items => .list (canonicalList items)
  | .object entries => .object (Entries.sort (canonicalEntries entries))
  | other => other

def canonicalList : List Json → List Json
  | [] => []
  | item :: rest => canonical item :: canonicalList rest

def canonicalEntries : List (String × Json) → List (String × Json)
  | [] => []
  | (key, value) :: rest => (key, canonical value) :: canonicalEntries rest
end

def get? (key : String) : Json → Option Json
  | .object entries => Entries.get? key entries
  | _ => none

def text? : Json → Option String
  | .text s => some s
  | _ => none

def kind : Json → String
  | .null => "null"
  | .bool _ => "a boolean"
  | .number _ => "a number"
  | .text _ => "a string"
  | .list _ => "an array"
  | .object _ => "an object"

def ofReal (x : Binary64) : Json :=
  match Number.ofReal? x with
  | some n => .number n
  | none => .null

def ofNat (n : Nat) : Json := .number (.integer n)

def texts (items : List String) : Json := .list (items.map .text)

end Json

end ApiLowering
