/-!
Double precision numbers as bit patterns. All arithmetic goes through exact ratios of natural
numbers and one rounding to the nearest double, ties to the even significand.
-/

set_option autoImplicit false

namespace ApiLowering

-- The quotient of two natural numbers, rounded to the nearest natural number, a tie to the even
-- one.
def roundHalfEven (num den : Nat) : Nat :=
  let quotient := num / den
  let twice := 2 * (num % den)
  if twice < den then quotient
  else if den < twice then quotient + 1
  else quotient + quotient % 2

-- A double precision number: one sign bit, eleven exponent bits and fifty-two fraction bits.
structure Binary64 where
  bits : UInt64
deriving DecidableEq, Repr

namespace Binary64

-- The weight of the sign bit, `2 ^ 63`.
def signWeight : Nat := 0x8000000000000000

-- The weight of the lowest exponent bit, `2 ^ 52`; the leading digit of a significand is worth as
-- much and is not written.
def exponentWeight : Nat := 0x10000000000000

def isNegative (x : Binary64) : Bool := signWeight ≤ x.bits.toNat

def magnitude (x : Binary64) : Nat := x.bits.toNat % signWeight

def exponentField (x : Binary64) : Nat := x.magnitude / exponentWeight

def fraction (x : Binary64) : Nat := x.magnitude % exponentWeight

def isFinite (x : Binary64) : Bool := x.exponentField < 2047

def isNaN (x : Binary64) : Bool := x.exponentField = 2047 ∧ x.fraction ≠ 0

def isZero (x : Binary64) : Bool := x.magnitude = 0

-- A finite number is `significand * 2 ^ exponent` up to its sign.
def significand (x : Binary64) : Nat :=
  if x.exponentField = 0 then x.fraction else exponentWeight + x.fraction

def exponent (x : Binary64) : Int := max (x.exponentField : Int) 1 - 1075

def ratio (x : Binary64) : Nat × Nat :=
  (x.significand <<< x.exponent.toNat, 1 <<< (-x.exponent).toNat)

def withSign (negative : Bool) (magnitude : Nat) : Binary64 :=
  ⟨UInt64.ofNat (magnitude + if negative then signWeight else 0)⟩

def infinity (negative : Bool) : Binary64 := withSign negative (2047 * exponentWeight)

def quietNaN : Binary64 := ⟨0x7FF8000000000000⟩

-- The largest `e` with `2 ^ e ≤ num / den`, for positive `num` and `den`.
def floorLog2 (num den : Nat) : Int :=
  let guess : Int := (num.log2 : Int) - (den.log2 : Int)
  if num <<< (-guess).toNat < den <<< guess.toNat then guess - 1 else guess

-- The double nearest to `num / den`; what rounds to `2 ^ 1024` or more is infinite.
def ofRatio (negative : Bool) (num den : Nat) : Binary64 :=
  if num = 0 then withSign negative 0
  else
    let scale := max (floorLog2 num den - 52) (-1074)
    let rounded := roundHalfEven (num <<< (-scale).toNat) (den <<< scale.toNat)
    let magnitude := (scale + 1074).toNat * exponentWeight + rounded
    if magnitude < 2047 * exponentWeight then withSign negative magnitude else infinity negative

def ofInt (n : Int) : Binary64 := ofRatio (n < 0) n.natAbs 1

def mul (x y : Binary64) : Binary64 :=
  let a := x.ratio
  let b := y.ratio
  ofRatio (x.isNegative != y.isNegative) (a.1 * b.1) (a.2 * b.2)

def div (x y : Binary64) : Binary64 :=
  let a := x.ratio
  let b := y.ratio
  ofRatio (x.isNegative != y.isNegative) (a.1 * b.2) (a.2 * b.1)

def neg (x : Binary64) : Binary64 := withSign (!x.isNegative) x.magnitude

-- The double nearest to `digits * 10 ^ exponent`. Exponents whose result is beyond every finite
-- double, or below half the least positive one, are answered without building the power.
def ofDecimal (negative : Bool) (digits : Nat) (exponent : Int) : Binary64 :=
  let length : Int := (Nat.toDigits 10 digits).length
  if digits = 0 then withSign negative 0
  else if 310 < exponent + length then infinity negative
  else if exponent + length < -330 then withSign negative 0
  else ofRatio negative (digits * Nat.pow 10 exponent.toNat) (Nat.pow 10 (-exponent).toNat)

-- Numeric equality: the two zeros are equal, and a number that is not a number equals nothing.
def equal (x y : Binary64) : Bool :=
  !x.isNaN && !y.isNaN && (x.bits == y.bits || (x.isZero && y.isZero))

end Binary64

end ApiLowering
