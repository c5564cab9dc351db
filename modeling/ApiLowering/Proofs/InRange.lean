import ApiLowering.Proofs.Finite
import ApiLowering.Tree.JsonNumber

/-!
Numeric literals are read within the range of JSON numbers. The digits gathered fit a word; scaling
them down can let their exponent grow only by rounding, and what is scaled up is checked.
-/

set_option autoImplicit false

namespace ApiLowering

-- A number that a JSON text can hold: an integer of a word, or a finite double.
def Number.InRange : Number → Prop
  | .integer n => Number.isWord n = true
  | .real x => x.isFinite = true

theorem Number.InRange.real {n : Number} (within : n.InRange) : n.Real := by
  cases n with
  | integer => trivial
  | real x =>
    have finite : x.exponentField < 2047 := of_decide_eq_true within
    exact decide_eq_false fun both => Nat.ne_of_lt finite both.1

namespace Binary64

theorem fraction_lt (x : Binary64) : x.fraction < exponentWeight := Nat.mod_lt _ (by decide)

theorem significand_lt (x : Binary64) : x.significand < 2 * exponentWeight := by
  have small := x.fraction_lt
  unfold significand
  split <;> omega

theorem exponentField_withSign {negative : Bool} {m e : Nat} (small : m < (e + 1) * exponentWeight)
    (fits : m < signWeight) : (withSign negative m).exponentField ≤ e := by
  rw [exponentField, magnitude_withSign fits]
  exact Nat.le_of_lt_succ (Nat.div_lt_of_lt_mul (Nat.mul_comm _ _ ▸ small))

theorem isFinite_neg (x : Binary64) : x.neg.isFinite = x.isFinite := by
  have same : x.neg.magnitude = x.magnitude := magnitude_withSign (Nat.mod_lt _ (by decide))
  rw [isFinite, exponentField, same]
  rfl

-- A ratio is below the power of two that is a step above its exponent.
theorem ratio_lt {x : Binary64} {e : Nat} (most : x.exponentField ≤ e) (normal : 1022 ≤ e) :
    x.ratio.1 < x.ratio.2 <<< (e - 1022) := by
  have small : x.significand <<< 0 < 1 <<< 53 := x.significand_lt
  have scaled := scaled_lt small (c := x.exponent.toNat)
    (d := (-x.exponent).toNat + (e - 1022)) <| by
      simp only [exponent]
      omega
  rw [ratio, ← Nat.shiftLeft_add]
  exact scaled

theorem ratio_pos (x : Binary64) : 0 < x.ratio.2 := by
  simp only [ratio, Nat.shiftLeft_eq, Nat.one_mul, Nat.two_pow_pos]

theorem floorLog2_of_lt {num den d : Nat} (small : num < den <<< d) : floorLog2 num den ≤ d := by
  refine Int.le_trans (floorLog2_le num den) ?_
  by_cases zero : num = 0
  · subst zero
    have least : Nat.log2 0 = 0 := rfl
    omega
  have positive : den ≠ 0 := by
    intro none
    rw [none, Nat.zero_shiftLeft] at small
    exact Nat.not_lt_zero _ small
  have bound : num < 2 ^ (den.log2 + 1 + d) := by
    refine Nat.lt_trans small ?_
    rw [Nat.shiftLeft_eq, Nat.pow_add]
    exact Nat.mul_lt_mul_of_pos_right Nat.lt_log2_self (Nat.two_pow_pos d)
  have least := (Nat.log2_lt zero).mpr bound
  omega

theorem ofRatio_exponentField {negative : Bool} {num den d : Nat} (small : num < den <<< d)
    (fits : d ≤ 1000) : (ofRatio negative num den).exponentField ≤ d + 1024 := by
  have positive : den ≠ 0 := by
    intro none
    rw [none, Nat.zero_shiftLeft] at small
    exact Nat.not_lt_zero _ small
  have least := floorLog2_of_lt small
  rw [ofRatio]
  by_cases zero : num = 0
  · rw [if_pos zero]
    exact exponentField_withSign (by simp only [exponentWeight]; omega) (by decide)
  rw [if_neg zero]
  generalize chosen : max (floorLog2 num den - 52) (-1074) = scale
  have rounded := rounded_le positive (chosen ▸ Int.le_max_left (floorLog2 num den - 52) (-1074))
  dsimp only
  generalize roundHalfEven (num <<< (-scale).toNat) (den <<< scale.toNat) = kept at rounded ⊢
  simp only [exponentWeight] at rounded
  have finite : (scale + 1074).toNat * exponentWeight + kept < 2047 * exponentWeight := by
    simp only [exponentWeight]
    omega
  rw [if_pos finite]
  refine exponentField_withSign ?_ (by simp only [exponentWeight, signWeight] at finite ⊢; omega)
  simp only [exponentWeight]
  omega

-- A divisor that is at least one lets the exponent grow by rounding alone.
theorem div_exponentField {x y : Binary64} {e : Nat} (most : x.exponentField ≤ e)
    (normal : 1022 ≤ e) (fits : e ≤ 2000) (least : y.ratio.2 ≤ y.ratio.1) :
    (x.div y).exponentField ≤ e + 2 := by
  have below : x.ratio.1 * y.ratio.2 < (x.ratio.2 * y.ratio.1) <<< (e - 1022) := by
    have positive : 0 < y.ratio.1 := Nat.lt_of_lt_of_le y.ratio_pos least
    calc x.ratio.1 * y.ratio.2 ≤ x.ratio.1 * y.ratio.1 := Nat.mul_le_mul_left _ least
      _ < x.ratio.2 <<< (e - 1022) * y.ratio.1 :=
        Nat.mul_lt_mul_of_pos_right (ratio_lt most normal) positive
      _ = (x.ratio.2 * y.ratio.1) <<< (e - 1022) := by
        rw [Nat.shiftLeft_eq, Nat.shiftLeft_eq, Nat.mul_right_comm]
  have bound : (x.div y).exponentField ≤ e - 1022 + 1024 :=
    ofRatio_exponentField below (by omega)
  omega

-- The powers of ten that scaling divides by.
theorem power_ratio : ∀ k < 309, (ofRatio false (Nat.pow 10 k) 1).ratio.2 ≤
    (ofRatio false (Nat.pow 10 k) 1).ratio.1 := by
  decide +kernel

end Binary64

namespace JsonText

theorem gatherInteger_fits {cs : List Char} {acc : Nat} (fit : acc < UInt64.size) :
    (gatherInteger cs acc).digits < UInt64.size := by
  induction cs generalizing acc with
  | nil => exact fit
  | cons c rest ih =>
    rw [gatherInteger]
    split
    · rename_i next
      exact ih (of_decide_eq_true next)
    · exact fit

theorem gatherDecimals_fits {cs : List Char} {g : Gathered} (fit : g.digits < UInt64.size) :
    (gatherDecimals cs g).digits < UInt64.size := by
  induction cs generalizing g with
  | nil => exact fit
  | cons c rest ih =>
    rw [gatherDecimals]
    split
    · rename_i next
      exact ih (of_decide_eq_true next)
    · exact fit

theorem isFinite_of_exponentField {x : Binary64} {e : Nat} (most : x.exponentField ≤ e)
    (small : e < 2047) : x.isFinite = true :=
  decide_eq_true (Nat.lt_of_le_of_lt most small)

theorem scale_finite {steps e : Nat} {x y : Binary64} {exponent : Int} (most : x.exponentField ≤ e)
    (normal : 1022 ≤ e) (room : e + 2 * steps ≤ 2000) (scaled : scale steps x exponent = some y) :
    y.isFinite = true := by
  induction steps generalizing x exponent e with
  | zero =>
    cases scaled
    exact isFinite_of_exponentField most (by omega)
  | succ steps ih =>
    by_cases near : exponent.natAbs ≤ 308
    · rw [scale, if_pos near] at scaled
      dsimp only at scaled
      by_cases down : exponent < 0
      · rw [if_pos down] at scaled
        cases scaled
        have bound := Binary64.div_exponentField most normal (by omega)
          (Binary64.power_ratio _ (Nat.lt_succ_of_le near))
        exact isFinite_of_exponentField bound (by omega)
      · rw [if_neg down] at scaled
        split at scaled
        · rename_i finite
          cases scaled
          exact finite
        · cases scaled
    · rw [scale, if_neg near] at scaled
      by_cases zero : x.isZero = true
      · rw [if_pos zero] at scaled
        cases scaled
        exact isFinite_of_exponentField most (by omega)
      · rw [if_neg zero] at scaled
        by_cases up : 0 ≤ exponent
        · rw [if_pos up] at scaled
          cases scaled
        · rw [if_neg up] at scaled
          have bound := Binary64.div_exponentField most normal (by omega)
            (Binary64.power_ratio 308 (by decide))
          exact ih bound (by omega) (by omega) scaled

theorem double_finite {negative : Bool} {g : Gathered} {x : Binary64}
    (fit : g.digits < UInt64.size) (made : double? negative g = some x) : x.isFinite = true := by
  obtain ⟨y, scaled, same⟩ := Option.map_eq_some_iff.mp made
  have start : (Binary64.ofRatio false g.digits 1).exponentField ≤ 1088 := by
    refine Binary64.ofRatio_exponentField (d := 64) ?_ (by decide)
    exact Nat.lt_of_lt_of_eq fit (by decide)
  have finite := scale_finite start (by decide) (by decide) scaled
  subst same
  split
  · rwa [Binary64.isFinite_neg]
  · exact finite

theorem real_inRange {negative : Bool} {g : Gathered} {n : Number} (fit : g.digits < UInt64.size)
    (made : (double? negative g).map .real = some n) : n.InRange := by
  obtain ⟨x, double, same⟩ := Option.map_eq_some_iff.mp made
  subst same
  exact double_finite fit double

theorem integer_inRange {negative : Bool} {g : Gathered} {n : Number}
    (fit : g.digits < UInt64.size) (made : integer? negative g = some n) : n.InRange := by
  by_cases wide : g.exponent ≠ 0
  · rw [integer?, if_pos wide] at made
    exact real_inRange fit made
  · rw [integer?, if_neg wide] at made
    by_cases positive : (!negative) = true
    · rw [if_pos positive] at made
      cases made
      have small : (g.digits : Int) < 0x10000000000000000 := by
        simp only [UInt64.size] at fit
        omega
      exact decide_eq_true ⟨by omega, small⟩
    · rw [if_neg positive] at made
      by_cases small : 0 < g.digits ∧ Number.isWord (-g.digits)
      · rw [if_pos small] at made
        cases made
        exact small.2
      · rw [if_neg small] at made
        exact real_inRange fit made

theorem orOutOfRange_inRange {found : Option Number} {n : Number}
    (fine : ∀ m, found = some m → m.InRange) (kept : orOutOfRange found = .ok n) : n.InRange := by
  cases found with
  | none => cases kept
  | some m =>
    cases kept
    exact fine n rfl

theorem readExponent_inRange {negative : Bool} {g : Gathered} {cs rest : List Char} {n : Number}
    (fit : g.digits < UInt64.size) (done : readExponent negative g cs = (.ok n, rest)) :
    n.InRange := by
  have scaled (exponent : Int) : (⟨g.digits, exponent⟩ : Gathered).digits < UInt64.size := fit
  unfold readExponent at done
  split at done
  split at done
  · cases done
  · exact orOutOfRange_inRange (fun _ => real_inRange (scaled _)) (Prod.mk.inj done).1

theorem readUnsigned_inRange {negative : Bool} {cs rest : List Char} {n : Number}
    (done : readUnsigned negative cs = (.ok n, rest)) : n.InRange := by
  have whole (digits : List Char) : (gatherInteger digits 0).digits < UInt64.size :=
    gatherInteger_fits (by decide)
  have decimal (decimals digits : List Char) :
      (gatherDecimals decimals (gatherInteger digits 0)).digits < UInt64.size :=
    gatherDecimals_fits (whole digits)
  unfold readUnsigned at done
  split at done
  · cases done
  · cases done
  · dsimp only at done
    split at done
    · split at done
      · cases done
      · split at done
        · split at done
          · exact readExponent_inRange (decimal _ _) done
          · exact orOutOfRange_inRange (fun _ => real_inRange (decimal _ _)) (Prod.mk.inj done).1
        · exact orOutOfRange_inRange (fun _ => real_inRange (decimal _ _)) (Prod.mk.inj done).1
    · split at done
      · exact readExponent_inRange (whole _) done
      · exact orOutOfRange_inRange (fun _ => integer_inRange (whole _)) (Prod.mk.inj done).1
    · exact orOutOfRange_inRange (fun _ => integer_inRange (whole _)) (Prod.mk.inj done).1

/-- A numeric literal is read as a number in range, or not at all. -/
theorem readNumber_inRange {cs rest : List Char} {n : Number}
    (done : readNumber cs = (.ok n, rest)) : n.InRange := by
  unfold readNumber at done
  split at done <;> exact readUnsigned_inRange done

end JsonText

end ApiLowering
