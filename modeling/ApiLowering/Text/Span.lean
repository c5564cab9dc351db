/-!
Sorted tables of code points, as spans with a stride, and their lookup.
-/

set_option autoImplicit false

namespace ApiLowering.Text

-- The code points `first`, `first + step`, … up to `last`.
structure Span where
  first : Nat
  last : Nat
  step : Nat
deriving DecidableEq, Repr

def Span.contains (s : Span) (n : Nat) : Bool :=
  s.first ≤ n ∧ n ≤ s.last ∧ (n - s.first) % s.step = 0

-- The last index below `hi` whose entry starts at `n` or before, looking from `lo` on.
def seek (start : Nat → Nat) (n lo hi : Nat) : Nat :=
  if hi ≤ lo + 1 then lo
  else
    let mid := (lo + hi) / 2
    if start mid ≤ n then seek start n mid hi else seek start n lo mid
termination_by hi - lo

def inTable (table : Array Span) (n : Nat) : Bool :=
  match table[seek (fun i => (table[i]?.map Span.first).getD 0) n 0 table.size]? with
  | some s => s.contains n
  | none => false

end ApiLowering.Text
