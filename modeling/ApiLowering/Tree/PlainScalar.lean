import ApiLowering.Tree.Basic
import ApiLowering.Text.Basic

/-!
The value of a plain scalar by its text: null, booleans, integers in four bases, decimals, and text
for everything else.
-/

set_option autoImplicit false

namespace ApiLowering.PlainScalar

open Text

def isNull (cs : List Char) : Bool :=
  let s := String.ofList cs
  s = "" || s = "null" || s = "Null" || s = "NULL" || s = "~"

def bool? (cs : List Char) : Option Bool :=
  let s := String.ofList cs
  if s = "true" || s = "True" || s = "TRUE" then some true
  else if s = "false" || s = "False" || s = "FALSE" then some false
  else none

def digit? (base : Nat) (c : Char) : Option Nat :=
  let n :=
    if c.isDigit then c.toNat - '0'.toNat
    else if 'a' ≤ c ∧ c ≤ 'z' then c.toNat - 'a'.toNat + 10
    else if 'A' ≤ c ∧ c ≤ 'Z' then c.toNat - 'A'.toNat + 10
    else base
  if n < base then some n else none

def natural? (base : Nat) (cs : List Char) : Option Nat :=
  if cs.isEmpty then none
  else (cs.mapM (digit? base)).map fun digits => digits.foldl (fun n d => n * base + d) 0

def unsigned (cs : List Char) : List Char :=
  match cs with
  | '+' :: rest => rest
  | '-' :: rest => rest
  | _ => cs

-- Leading zeros make a text, not a number.
def isPadded (cs : List Char) : Bool :=
  match unsigned cs with
  | '0' :: d :: rest => (d :: rest).all Char.isDigit
  | _ => false

def based? (cs : List Char) : Option Nat :=
  match cs with
  | '0' :: 'x' :: rest => natural? 16 rest
  | '0' :: 'o' :: rest => natural? 8 rest
  | '0' :: 'b' :: rest => natural? 2 rest
  | _ => none

-- The integer that a text spells, whatever its size.
def integer? (cs : List Char) : Option Int :=
  let decimal (digits : List Char) : Option Nat := if isPadded cs then none else natural? 10 digits
  match cs with
  | '-' :: rest => ((based? rest).or (decimal rest)).map fun n => -(n : Int)
  | '+' :: rest => ((based? rest).or (decimal rest)).map fun n => (n : Int)
  | _ => ((based? cs).or (decimal cs)).map fun n => (n : Int)

def exponent? (cs : List Char) : Option Int :=
  match cs with
  | '-' :: rest => (natural? 10 rest).map fun n => -(n : Int)
  | '+' :: rest => (natural? 10 rest).map fun n => (n : Int)
  | _ => (natural? 10 cs).map fun n => (n : Int)

-- A decimal with an optional point and exponent and at least one digit.
def decimal? (negative : Bool) (cs : List Char) : Option Binary64 :=
  let whole := cs.takeWhile Char.isDigit
  let rest := cs.dropWhile Char.isDigit
  let fraction :=
    match rest with
    | '.' :: behind => behind.takeWhile Char.isDigit
    | _ => []
  let rest :=
    match rest with
    | '.' :: behind => behind.dropWhile Char.isDigit
    | _ => rest
  let power :=
    match rest with
    | [] => some 0
    | mark :: behind => if mark = 'e' || mark = 'E' then exponent? behind else none
  match natural? 10 (whole ++ fraction), power with
  | some digits, some power => some (Binary64.ofDecimal negative digits (power - fraction.length))
  | _, _ => none

-- Spelled infinities, not-a-number, and finite decimals.
def real? (cs : List Char) : Option Binary64 :=
  let isInfinity (cs : List Char) : Bool :=
    let s := String.ofList cs
    s = ".inf" || s = ".Inf" || s = ".INF"
  let isNaN (cs : List Char) : Bool :=
    let s := String.ofList cs
    s = ".nan" || s = ".NaN" || s = ".NAN"
  let finite (x : Option Binary64) : Option Binary64 := x.filter Binary64.isFinite
  if isNaN cs then some Binary64.quietNaN
  else
    match cs with
    | '-' :: rest =>
      if isInfinity rest then some (Binary64.infinity true) else finite (decimal? true rest)
    | '+' :: rest =>
      if isInfinity rest then some (Binary64.infinity false) else finite (decimal? false rest)
    | _ => if isInfinity cs then some (Binary64.infinity false) else finite (decimal? false cs)

-- Wider than sixty-four bits and still an integer of twice that width.
def isWide (n : Int) : Bool :=
  !Number.isWord n
    && (-0x80000000000000000000000000000000 ≤ n ∧ n < 0x100000000000000000000000000000000)

-- The value of a plain scalar; a wide integer has none.
def resolve (text : String) : Option Scalar :=
  let cs := text.toList
  if isNull cs then some .null
  else
    match bool? cs with
    | some b => some (.bool b)
    | none =>
      let real : Scalar :=
        match if isPadded cs then none else real? cs with
        | some x => .number (.real x)
        | none => .text text
      match integer? cs with
      | some n =>
        if Number.isWord n then some (.number (.integer n))
        else if isWide n then none
        else some real
      | none => some real

-- The value of a scalar that is tagged as one of the core types.
def resolveAs (tag text : String) : Option Scalar :=
  let cs := text.toList
  match tag with
  | "bool" => (bool? cs).map .bool
  | "int" =>
    match integer? cs with
    | some n => if Number.isWord n then some (.number (.integer n)) else none
    | none => none
  | "float" => (real? cs).map fun x => .number (.real x)
  | "null" => if isNull cs && !cs.isEmpty then some .null else none
  | _ => some (.text text)

end ApiLowering.PlainScalar
