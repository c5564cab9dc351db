/-!
Texts as lists of characters: splitting, trimming, replacing and joining.
-/

set_option autoImplicit false

namespace ApiLowering.Text

-- The pieces between occurrences of `sep`, empty ones included; never the empty list.
def split (sep : Char) : List Char → List (List Char)
  | [] => [[]]
  | c :: rest =>
    if c = sep then [] :: split sep rest
    else
      match split sep rest with
      | [] => [[c]]
      | piece :: more => (c :: piece) :: more

def isBlank (c : Char) : Bool :=
  let n := c.toNat
  (9 ≤ n ∧ n ≤ 13) || n = 32 || n = 0x85 || n = 0xA0 || n = 0x1680 || (0x2000 ≤ n ∧ n ≤ 0x200A)
    || n = 0x2028 || n = 0x2029 || n = 0x202F || n = 0x205F || n = 0x3000

def dropEndWhile (p : Char → Bool) (cs : List Char) : List Char :=
  (cs.reverse.dropWhile p).reverse

def trim (cs : List Char) : List Char := dropEndWhile isBlank (cs.dropWhile isBlank)

def expand (target : Char) (replacement : List Char) (cs : List Char) : List Char :=
  cs.flatMap fun c => if c = target then replacement else [c]

-- Every occurrence of a pair of characters, read from the left, becomes one character.
def contract (first second replacement : Char) : List Char → List Char
  | [] => []
  | [c] => [c]
  | c :: d :: rest =>
    if c = first ∧ d = second then replacement :: contract first second replacement rest
    else c :: contract first second replacement (d :: rest)

-- The rest after `lead`, when the text starts with it.
def dropLead? : List Char → List Char → Option (List Char)
  | [], rest => some rest
  | _ :: _, [] => none
  | l :: lead, c :: rest => if l = c then dropLead? lead rest else none

-- The text before `tail`, when the text ends with it.
def dropTail? (tail cs : List Char) : Option (List Char) :=
  (dropLead? tail.reverse cs.reverse).map List.reverse

def startsWith (lead cs : List Char) : Bool := (dropLead? lead cs).isSome

def endsWith (tail cs : List Char) : Bool := (dropTail? tail cs).isSome

def lowerAscii (s : String) : String := String.ofList (s.toList.map Char.toLower)

def hexValue? (c : Char) : Option Nat :=
  if c.isDigit then some (c.toNat - '0'.toNat)
  else if 'a' ≤ c ∧ c ≤ 'f' then some (c.toNat - 'a'.toNat + 10)
  else if 'A' ≤ c ∧ c ≤ 'F' then some (c.toNat - 'A'.toNat + 10)
  else none

def hexDigits (n : Nat) : String := String.ofList (Nat.toDigits 16 n)

end ApiLowering.Text
