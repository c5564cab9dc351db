import ApiLowering.Numeric.Binary64

/-!
The text of a double: the fewest decimal digits that read back as the same number, nearest to it
among those, written with a point for magnitudes from `10 ^ -5` up to `10 ^ 16` and with a signed
exponent elsewhere.
-/

set_option autoImplicit false

namespace ApiLowering

-- A positive decimal `digits * 10 ^ exponent`.
structure Decimal where
  digits : Nat
  exponent : Int
deriving DecidableEq, Repr

namespace Binary64

-- A number and the ends of an interval around it, as multiples of `1 / den`. Both ends belong to
-- the interval when it is closed, and neither does otherwise.
structure Interval where
  low : Nat
  value : Nat
  high : Nat
  den : Nat
  closed : Bool

-- The numbers that round to a positive finite double, over one denominator. Below a power of two
-- the next smaller double is half as far away.
def interval (x : Binary64) : Interval :=
  let m := x.significand
  let narrow := x.fraction = 0 ∧ 1 < x.exponentField
  let up := 1 <<< x.exponent.toNat
  { low := (if narrow then 4 * m - 1 else 4 * m - 2) * up
    value := 4 * m * up
    high := (4 * m + 2) * up
    den := 4 <<< (-x.exponent).toNat
    closed := m % 2 = 0 }

def Interval.contains (i : Interval) (num den : Nat) : Bool :=
  let a := num * i.den
  if i.closed then i.low * den ≤ a ∧ a ≤ i.high * den else i.low * den < a ∧ a < i.high * den

-- The multiple of `10 ^ exponent` nearest to the number, when a multiple lies in its interval.
def Interval.onGrid? (i : Interval) (exponent : Int) : Option Nat :=
  let up := Nat.pow 10 exponent.toNat
  let down := Nat.pow 10 (-exponent).toNat
  let below := i.value * down / (i.den * up)
  let inside (k : Nat) : Bool := i.contains (k * up) down
  let nearest := roundHalfEven (i.value * down) (i.den * up)
  if 0 < nearest ∧ inside nearest then some nearest
  else if 0 < below ∧ inside below then some below
  else if inside (below + 1) then some (below + 1)
  else none

def leadingExponent (num den : Nat) : Int :=
  let guess : Int := ((Nat.toDigits 10 num).length : Int) - ((Nat.toDigits 10 den).length : Int)
  if num * Nat.pow 10 (-guess).toNat < den * Nat.pow 10 guess.toNat then guess - 1 else guess

-- The first grid, from the coarsest down, that meets the interval.
def Interval.search (i : Interval) : Nat → Int → Option Decimal
  | 0, _ => none
  | more + 1, exponent =>
    match i.onGrid? exponent with
    | some digits => some ⟨digits, exponent⟩
    | none => i.search more (exponent - 1)

def trim : Nat → Decimal → Decimal
  | 0, d => d
  | more + 1, d => if d.digits % 10 = 0 then trim more ⟨d.digits / 10, d.exponent + 1⟩ else d

def shortest (x : Binary64) : Decimal :=
  let i := x.interval
  let top := leadingExponent i.value i.den + 1
  trim 20 ((i.search 19 top).getD ⟨x.significand, 0⟩)

end Binary64

def Decimal.render (d : Decimal) : String :=
  let digits := Nat.toDigits 10 d.digits
  let point := (digits.length : Int) + d.exponent
  if 0 ≤ d.exponent ∧ point ≤ 16 then
    String.ofList (digits ++ List.replicate d.exponent.toNat '0') ++ ".0"
  else if 0 < point ∧ point ≤ 16 then
    String.ofList (digits.take point.toNat) ++ "." ++ String.ofList (digits.drop point.toNat)
  else if -5 < point ∧ point ≤ 0 then
    "0." ++ String.ofList (List.replicate (-point).toNat '0' ++ digits)
  else
    let tail := digits.drop 1
    let fraction := if tail.isEmpty then "" else "." ++ String.ofList tail
    let mantissa := String.ofList (digits.take 1) ++ fraction
    let power := point - 1
    mantissa ++ "e" ++ (if power < 0 then "-" else "+") ++ toString power.natAbs

def Binary64.render (x : Binary64) : String :=
  let sign := if x.isNegative then "-" else ""
  if x.isZero then sign ++ "0.0" else sign ++ x.shortest.render

end ApiLowering
