import ApiLowering.Json.Basic
import ApiLowering.Proofs.Numbers

/-!
Finite doubles. An integer of sixty-four bits is far below the largest double, and what a numeric
literal rounds to is finite or refused.
-/

set_option autoImplicit false

namespace ApiLowering

namespace Binary64

theorem isFinite_withSign {negative : Bool} {m : Nat} (small : m < 2047 * exponentWeight) :
    (withSign negative m).isFinite = true := by
  have bound : m < signWeight := by
    simp only [exponentWeight, signWeight] at small ⊢
    omega
  rw [isFinite, exponentField, magnitude_withSign bound]
  exact decide_eq_true (Nat.div_lt_of_lt_mul (Nat.mul_comm _ _ ▸ small))

theorem roundHalfEven_le (num den : Nat) : roundHalfEven num den ≤ num / den + 1 := by
  unfold roundHalfEven
  dsimp only
  split
  · omega
  · split <;> omega

-- A ratio that is below a power of two stays below a higher one, whichever side is scaled.
theorem scaled_lt {num den a b c d : Nat} (less : num <<< a < den <<< b) (more : b + c ≤ a + d) :
    num <<< c < den <<< d := by
  rw [Nat.shiftLeft_eq, Nat.shiftLeft_eq] at less ⊢
  have scaled : num * 2 ^ a * 2 ^ c < den * 2 ^ b * 2 ^ c :=
    Nat.mul_lt_mul_of_pos_right less (Nat.two_pow_pos c)
  have raised : den * 2 ^ (b + c) ≤ den * 2 ^ (a + d) :=
    Nat.mul_le_mul_left den (Nat.pow_le_pow_right (by decide) more)
  rw [Nat.mul_assoc den, ← Nat.pow_add, Nat.mul_right_comm] at scaled
  rw [Nat.add_comm a d, Nat.pow_add 2 d a, ← Nat.mul_assoc] at raised
  exact Nat.lt_of_mul_lt_mul_right (Nat.lt_of_lt_of_le scaled raised)

theorem floorLog2_le (num den : Nat) : floorLog2 num den ≤ (num.log2 : Int) - den.log2 := by
  simp only [floorLog2]
  split
  · omega
  · exact Int.le_refl _

-- A ratio is below the power of two after its logarithm.
theorem lt_floorLog2 {num den : Nat} (positive : den ≠ 0) :
    num <<< (-(floorLog2 num den + 1)).toNat < den <<< (floorLog2 num den + 1).toNat := by
  simp only [floorLog2]
  split
  · rename_i less
    exact scaled_lt less (by omega)
  · generalize low : (-((num.log2 : Int) - den.log2 + 1)).toNat = a
    generalize high : ((num.log2 : Int) - den.log2 + 1).toNat = b
    rw [Nat.shiftLeft_eq, Nat.shiftLeft_eq]
    have above : num * 2 ^ a < 2 ^ (num.log2 + 1) * 2 ^ a :=
      Nat.mul_lt_mul_of_pos_right Nat.lt_log2_self (Nat.two_pow_pos a)
    have same : 2 ^ (num.log2 + 1) * 2 ^ a = 2 ^ den.log2 * 2 ^ b := by
      rw [← Nat.pow_add, ← Nat.pow_add]
      congr 1
      omega
    rw [same] at above
    exact Nat.lt_of_lt_of_le above (Nat.mul_le_mul_right _ (Nat.log2_self_le positive))

-- A significand has at most fifty-three bits when the scale takes fifty-two off the logarithm.
theorem rounded_le {num den : Nat} (positive : den ≠ 0) {scale : Int}
    (fits : floorLog2 num den - 52 ≤ scale) :
    roundHalfEven (num <<< (-scale).toNat) (den <<< scale.toNat) ≤ 2 * exponentWeight := by
  have bound : num <<< (-scale).toNat < den <<< (53 + scale.toNat) :=
    scaled_lt (lt_floorLog2 positive) (by omega)
  refine Nat.le_trans (roundHalfEven_le _ _) (Nat.succ_le_of_lt (Nat.div_lt_of_lt_mul ?_))
  rw [Nat.shiftLeft_eq den, show 2 * exponentWeight = 2 ^ 53 from rfl, Nat.mul_assoc, ← Nat.pow_add,
    Nat.add_comm, ← Nat.shiftLeft_eq]
  exact bound

/-- A ratio below `2 ^ 1023` rounds to a finite double. -/
theorem isFinite_ofRatio {negative : Bool} {num den : Nat} (positive : den ≠ 0)
    (small : floorLog2 num den ≤ 1022) : (ofRatio negative num den).isFinite = true := by
  rw [ofRatio]
  by_cases zero : num = 0
  · rw [if_pos zero]
    exact isFinite_withSign (by decide)
  rw [if_neg zero]
  generalize chosen : max (floorLog2 num den - 52) (-1074) = scale
  have rounded := rounded_le positive (chosen ▸ Int.le_max_left (floorLog2 num den - 52) (-1074))
  dsimp only
  have finite : (scale + 1074).toNat * exponentWeight +
      roundHalfEven (num <<< (-scale).toNat) (den <<< scale.toNat) < 2047 * exponentWeight := by
    simp only [exponentWeight] at rounded ⊢
    omega
  rw [if_pos finite]
  exact isFinite_withSign finite

theorem isFinite_ofInt {n : Int} (word : Number.isWord n = true) : (ofInt n).isFinite = true := by
  apply isFinite_ofRatio (by decide)
  have bound : n.natAbs < 2 ^ 64 := by
    have := of_decide_eq_true word
    omega
  have most : floorLog2 n.natAbs 1 ≤ (n.natAbs.log2 : Int) := floorLog2_le n.natAbs 1
  by_cases zero : n.natAbs = 0
  · rw [zero] at most ⊢
    exact Int.le_trans most (by decide)
  · have small : n.natAbs.log2 < 64 := (Nat.log2_lt zero).mpr bound
    omega

end Binary64

end ApiLowering
