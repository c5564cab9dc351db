import ApiLowering.Tree.Basic

/-!
Numbers in JSON texts. Digits are gathered into sixty-four bits; what does not fit is counted by an
exponent, and the double is the gathered digits scaled by one power of ten at a time.
-/

set_option autoImplicit false

namespace ApiLowering.JsonText

-- Digits gathered so far, and the power of ten that they are to be scaled by.
structure Gathered where
  digits : Nat
  exponent : Int
deriving DecidableEq, Repr

def digitValue (c : Char) : Nat := c.toNat - '0'.toNat

def fits (n : Nat) : Bool := n < UInt64.size

-- Gathers integer digits; from the first that does not fit on, digits only raise the exponent.
def gatherInteger : List Char → Nat → Gathered
  | [], acc => ⟨acc, 0⟩
  | c :: rest, acc =>
    let next := acc * 10 + digitValue c
    if fits next then gatherInteger rest next else ⟨acc, rest.length + 1⟩

-- Gathers decimals; the first that does not fit ends the gathering.
def gatherDecimals : List Char → Gathered → Gathered
  | [], g => g
  | c :: rest, g =>
    let next := g.digits * 10 + digitValue c
    if fits next then gatherDecimals rest ⟨next, g.exponent - 1⟩ else g

-- Scales by a power of ten in steps of at most `10 ^ 308`; none when the result is infinite.
def scale : Nat → Binary64 → Int → Option Binary64
  | 0, x, _ => some x
  | steps + 1, x, exponent =>
    if exponent.natAbs ≤ 308 then
      let power := Binary64.ofRatio false (Nat.pow 10 exponent.natAbs) 1
      if exponent < 0 then some (x.div power)
      else
        let product := x.mul power
        if product.isFinite then some product else none
    else if x.isZero then some x
    else if 0 ≤ exponent then none
    else scale steps (x.div (Binary64.ofRatio false (Nat.pow 10 308) 1)) (exponent + 308)

def double? (negative : Bool) (g : Gathered) : Option Binary64 :=
  (scale 8 (Binary64.ofRatio false g.digits 1) g.exponent).map fun x =>
    if negative then x.neg else x

-- A literal without point and exponent. Negative zero, and what no sixty-four bits hold, is a
-- double.
def integer? (negative : Bool) (g : Gathered) : Option Number :=
  if g.exponent ≠ 0 then (double? negative g).map .real
  else if !negative then some (.integer g.digits)
  else if 0 < g.digits ∧ Number.isWord (-g.digits) then some (.integer (-g.digits))
  else (double? negative g).map .real

-- A literal that ends too early is malformed for a reader that passes over it.
def brokenNumber (rest : List Char) : Flaw :=
  if rest.isEmpty then ⟨.truncated, some .malformed⟩ else ⟨.malformed, some .malformed⟩

-- A value that is no finite double can still be passed over.
def orOutOfRange (n : Option Number) : Except Flaw Number :=
  match n with
  | some value => .ok value
  | none => .error ⟨.malformed, none⟩

def spanDigits (cs : List Char) : List Char × List Char :=
  (cs.takeWhile Char.isDigit, cs.dropWhile Char.isDigit)

def readExponent (negative : Bool) (g : Gathered) (cs : List Char) :
    Except Flaw Number × List Char :=
  let (down, cs) :=
    match cs with
    | '-' :: rest => (true, rest)
    | '+' :: rest => (false, rest)
    | _ => (false, cs)
  match spanDigits cs with
  | ([], rest) => (.error (brokenNumber rest), rest)
  | (digits, rest) =>
    let power : Int := (digits.foldl (fun n c => n * 10 + digitValue c) 0 : Nat)
    let exponent := if down then g.exponent - power else g.exponent + power
    (orOutOfRange ((double? negative ⟨g.digits, exponent⟩).map .real), rest)

def isExponentMark (c : Char) : Bool := c = 'e' || c = 'E'

def readUnsigned (negative : Bool) (cs : List Char) : Except Flaw Number × List Char :=
  match spanDigits cs with
  | ([], rest) => (.error (brokenNumber rest), rest)
  | ('0' :: _ :: _, rest) => (.error ⟨.malformed, some .malformed⟩, rest)
  | (digits, rest) =>
    let whole := gatherInteger digits 0
    match rest with
    | '.' :: behind =>
      match spanDigits behind with
      | ([], rest) => (.error (brokenNumber rest), rest)
      | (decimals, rest) =>
        let g := gatherDecimals decimals whole
        match rest with
        | c :: behind =>
          if isExponentMark c then readExponent negative g behind
          else (orOutOfRange ((double? negative g).map .real), rest)
        | [] => (orOutOfRange ((double? negative g).map .real), rest)
    | c :: behind =>
      if isExponentMark c then readExponent negative whole behind
      else (orOutOfRange (integer? negative whole), rest)
    | [] => (orOutOfRange (integer? negative whole), rest)

def readNumber (cs : List Char) : Except Flaw Number × List Char :=
  match cs with
  | '-' :: rest => readUnsigned true rest
  | _ => readUnsigned false cs

end ApiLowering.JsonText
