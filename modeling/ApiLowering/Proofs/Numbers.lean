import ApiLowering.Json.Basic

/-!
Doubles that are numbers: rounding a ratio gives one.
-/

set_option autoImplicit false

namespace ApiLowering

namespace Binary64

theorem magnitude_withSign {negative : Bool} {m : Nat} (small : m < signWeight) :
    (withSign negative m).magnitude = m := by
  have bound : m + (if negative then signWeight else 0) < 2 ^ 64 := by
    simp only [signWeight] at small ⊢
    split <;> omega
  have bits : (withSign negative m).bits.toNat = m + if negative then signWeight else 0 := by
    rw [withSign, UInt64.toNat_ofNat']
    exact Nat.mod_eq_of_lt bound
  rw [magnitude, bits]
  split
  · rw [Nat.add_mod_right, Nat.mod_eq_of_lt small]
  · exact Nat.mod_eq_of_lt small

theorem isNaN_withSign {negative : Bool} {m : Nat} (small : m ≤ 2047 * exponentWeight) :
    (withSign negative m).isNaN = false := by
  have bound : m < signWeight := by
    simp only [exponentWeight, signWeight] at small ⊢
    omega
  have number : ¬ (m / exponentWeight = 2047 ∧ m % exponentWeight ≠ 0) := by
    simp only [exponentWeight] at small ⊢
    omega
  simp only [isNaN, exponentField, fraction, magnitude_withSign bound, number, decide_false]

theorem isNaN_ofRatio (negative : Bool) (num den : Nat) :
    (ofRatio negative num den).isNaN = false := by
  by_cases zero : num = 0
  · rw [ofRatio, if_pos zero]
    exact isNaN_withSign (Nat.zero_le _)
  · rw [ofRatio, if_neg zero]
    dsimp only
    -- what is too large is infinity, the largest magnitude that is still a number
    split
    · rename_i small
      exact isNaN_withSign (Nat.le_of_lt small)
    · exact isNaN_withSign (Nat.le_refl _)

end Binary64

-- A number of a JSON value; a double that is one.
def Number.Real : Number → Prop
  | .integer _ => True
  | .real x => x.isNaN = false

end ApiLowering
