import Heredoc.Decimal.Binary64
import Mathlib.Algebra.Order.Field.Power
import Mathlib.Data.Nat.Cast.Order.Field
import Mathlib.Tactic.Linarith
import Mathlib.Tactic.NormNum
import Mathlib.Tactic.Positivity
import Mathlib.Tactic.Ring

/-!
# Rounding to binary values

The value nearest to a quotient is at most an eighth larger than the quotient if that is one or more
(`magnitude_ofRatio_le`), and it is infinite only from `2 ^ 1024 - 2 ^ 970` on
(`le_of_isInfinite_ofRatio`).
-/

namespace Heredoc.Binary64

/-! ## Rounding -/

/-- The magnitude of a finite value. -/
def magnitude (value : Binary64) : ℚ :=
  value.ratio.1 / value.ratio.2

theorem roundDiv_le {num den : Nat} (positive : 0 < den) :
    (roundDiv num den : ℚ) ≤ num / den + 1 / 2 := by
  have divided : (num : ℚ) = den * (num / den : Nat) + (num % den : Nat) := by
    exact_mod_cast (Nat.div_add_mod num den).symm
  have positiveRat : (0 : ℚ) < den := by exact_mod_cast positive
  have exactly : (num : ℚ) / den = (num / den : Nat) + (num % den : Nat) / den := by
    rw [div_eq_iff positiveRat.ne', add_mul, div_mul_cancel₀ _ positiveRat.ne', mul_comm]
    exact divided
  have rest : (0 : ℚ) ≤ (num % den : Nat) / den := by positivity
  unfold roundDiv
  dsimp only
  split
  · linarith
  · rename_i down
    have half : den ≤ 2 * (num % den) := by
      by_contra less
      apply down
      rw [Bool.or_eq_true, decide_eq_true_eq]
      exact .inl (Nat.not_le.mp less)
    have halfRat : (1 : ℚ) / 2 ≤ (num % den : Nat) / den := by
      rw [div_le_div_iff₀ two_pos positiveRat]
      exact_mod_cast (by omega : 1 * den ≤ num % den * 2)
    push_cast
    linarith

theorem inUnits_eq (num den : Nat) (exponent : Int) :
    ((inUnits num den exponent).1 : ℚ) / (inUnits num den exponent).2 =
      num / den / 2 ^ exponent := by
  unfold inUnits
  split
  · rename_i up
    obtain ⟨size, rfl⟩ := Int.eq_ofNat_of_zero_le up
    simp only [Int.toNat_natCast, Nat.pow_eq, Nat.cast_mul, Nat.cast_pow, Nat.cast_ofNat,
      zpow_natCast]
    rw [div_div]
  · rename_i down
    obtain ⟨size, same⟩ : ∃ size : Nat, exponent = -size := ⟨(-exponent).toNat, by omega⟩
    subst same
    simp only [neg_neg, Int.toNat_natCast, Nat.pow_eq, Nat.cast_mul, Nat.cast_pow, Nat.cast_ofNat,
      zpow_neg, zpow_natCast]
    rw [div_inv_eq_mul, mul_div_right_comm]

theorem inUnits_pos {den : Nat} (positive : 0 < den) (num : Nat) (exponent : Int) :
    0 < (inUnits num den exponent).2 := by
  unfold inUnits
  split
  · exact Nat.mul_pos positive (Nat.two_pow_pos _)
  · exact positive

/-- The exponent that a quotient is rounded with. -/
def unitExponent (num den : Nat) : Int :=
  let guess := max ((Nat.log2 num : Int) - Nat.log2 den - 52) leastExponent
  let scaled := inUnits num den guess
  if scaled.1 / scaled.2 < Nat.pow 2 52 ∧ guess > leastExponent then guess - 1 else guess

/-- The value with this mantissa and exponent, or infinity. -/
def pack (negative : Bool) (mantissa : Nat) (exponent : Int) : Binary64 :=
  if exponent > greatestExponent then .infinite negative else .finite negative mantissa exponent

theorem ofRatio_eq
    {num den : Nat} (numPositive : 0 < num) (denPositive : 0 < den) (negative : Bool) :
    let scaled := inUnits num den (unitExponent num den)
    let mantissa := roundDiv scaled.1 scaled.2
    ofRatio negative num den =
      if mantissa = Nat.pow 2 53 then pack negative (Nat.pow 2 52) (unitExponent num den + 1)
      else pack negative mantissa (unitExponent num den) := by
  intro scaled mantissa
  have positive : ¬ (num = 0 ∨ den = 0) := by omega
  rw [ofRatio, if_neg positive]
  let chosen :=
    if mantissa = Nat.pow 2 53 then (Nat.pow 2 52, unitExponent num den + 1)
    else (mantissa, unitExponent num den)
  change pack negative chosen.1 chosen.2 = _
  by_cases carries : mantissa = Nat.pow 2 53
  · have carried : chosen = (Nat.pow 2 52, unitExponent num den + 1) := if_pos carries
    rw [carried, if_pos carries]
  · have kept : chosen = (mantissa, unitExponent num den) := if_neg carries
    rw [kept, if_neg carries]

/-- In the chosen unit a quotient has 53 bits, unless the unit is the least one. -/
theorem le_of_unitExponent
    {num den : Nat} (numPositive : 0 < num) (denPositive : 0 < den)
    (normal : unitExponent num den ≠ leastExponent) :
    (2 : ℚ) ^ 52 ≤ num / den / 2 ^ unitExponent num den := by
  let guess := max ((Nat.log2 num : Int) - Nat.log2 den - 52) leastExponent
  let scaled := inUnits num den guess
  have chosen :
      unitExponent num den =
        if scaled.1 / scaled.2 < Nat.pow 2 52 ∧ guess > leastExponent then guess - 1 else guess :=
    rfl
  rw [chosen] at normal ⊢
  have bounded : leastExponent ≤ guess := le_max_right _ _
  by_cases short : scaled.1 / scaled.2 < Nat.pow 2 52 ∧ guess > leastExponent
  · rw [if_pos short]
    have unclamped : guess = (Nat.log2 num : Int) - Nat.log2 den - 52 := by
      rcases max_choice ((Nat.log2 num : Int) - Nat.log2 den - 52) leastExponent with same | same
      · exact same
      · exact absurd short.2 (not_lt.mpr same.le)
    have numLog : (2 : ℚ) ^ Nat.log2 num ≤ num := by
      exact_mod_cast Nat.log2_self_le numPositive.ne'
    have denLog : (den : ℚ) ≤ 2 ^ (Nat.log2 den + 1) := by
      exact_mod_cast Nat.lt_log2_self.le
    have denRat : (0 : ℚ) < den := by exact_mod_cast denPositive
    have powers :
        (2 : ℚ) ^ 52 * 2 ^ (guess - 1) = 2 ^ Nat.log2 num / 2 ^ (Nat.log2 den + 1) := by
      rw [unclamped, ← zpow_natCast, ← zpow_natCast, ← zpow_natCast, ← zpow_add₀ two_ne_zero,
        ← zpow_sub₀ two_ne_zero]
      congr 1
      push_cast
      ring
    rw [le_div_iff₀ (by positivity), powers]
    exact div_le_div₀ (by positivity) numLog denRat denLog
  · rw [if_neg short] at normal ⊢
    have long : Nat.pow 2 52 ≤ scaled.1 / scaled.2 := by
      by_contra less
      exact short ⟨Nat.not_le.mp less, lt_of_le_of_ne bounded normal.symm⟩
    calc
      (2 : ℚ) ^ 52 ≤ (scaled.1 / scaled.2 : Nat) := by exact_mod_cast long
      _ ≤ scaled.1 / scaled.2 := Nat.cast_div_le
      _ = num / den / 2 ^ guess := inUnits_eq num den guess

theorem le_mantissa
    (num : Nat) {den : Nat} (denPositive : 0 < den) (exponent : Int) :
    let scaled := inUnits num den exponent
    (roundDiv scaled.1 scaled.2 : ℚ) ≤ num / den / 2 ^ exponent + 1 / 2 := by
  intro scaled
  rw [← inUnits_eq]
  exact roundDiv_le (inUnits_pos denPositive num exponent)

theorem greatestExponent_lt_of_isInfinite_pack
    {negative : Bool} {mantissa : Nat} {exponent : Int}
    (infinite : (pack negative mantissa exponent).isInfinite = true) :
    greatestExponent < exponent := by
  unfold pack at infinite
  split at infinite
  · assumption
  · cases infinite

/-- Only a quotient beyond all finite values is rounded to infinity. -/
theorem le_of_isInfinite_ofRatio
    {num den : Nat} {negative : Bool}
    (numPositive : 0 < num) (denPositive : 0 < den)
    (infinite : (ofRatio negative num den).isInfinite = true) :
    (2 : ℚ) ^ 1024 - 2 ^ 970 ≤ num / den := by
  have greatest : greatestExponent = 971 := rfl
  have least : leastExponent = -1074 := rfl
  have limit : (2 : ℚ) ^ 1024 = 2 ^ 53 * 2 ^ (971 : Int) := by
    rw [← zpow_natCast, ← zpow_natCast, ← zpow_add₀ two_ne_zero]
    norm_num
  have half : (2 : ℚ) * 2 ^ 970 = 2 ^ (971 : Int) := by
    rw [← pow_succ']
    rfl
  have rounded := ofRatio_eq numPositive denPositive negative
  dsimp only at rounded
  rw [rounded] at infinite
  by_cases carries : roundDiv (inUnits num den (unitExponent num den)).1
      (inUnits num den (unitExponent num den)).2 = Nat.pow 2 53
  · rw [if_pos carries] at infinite
    have beyond := greatestExponent_lt_of_isInfinite_pack infinite
    have mantissa := le_mantissa num denPositive (unitExponent num den)
    dsimp only at mantissa
    rw [carries] at mantissa
    have powers : (2 : ℚ) ^ (971 : Int) ≤ 2 ^ unitExponent num den :=
      zpow_le_zpow_right₀ one_le_two (by omega)
    have positive : (0 : ℚ) < 2 ^ unitExponent num den := by positivity
    have scaled : (2 : ℚ) ^ 53 - 1 / 2 ≤ num / den / 2 ^ unitExponent num den := by
      have cast : ((Nat.pow 2 53 : Nat) : ℚ) = 2 ^ 53 := by norm_num
      rw [cast] at mantissa
      linarith
    rw [le_div_iff₀ positive] at scaled
    calc
      (2 : ℚ) ^ 1024 - 2 ^ 970 = (2 ^ 53 - 1 / 2) * 2 ^ (971 : Int) := by
        rw [limit, ← half]
        generalize (2 : ℚ) ^ 970 = unit
        ring
      _ ≤ (2 ^ 53 - 1 / 2) * 2 ^ unitExponent num den := by
        apply mul_le_mul_of_nonneg_left powers
        norm_num
      _ ≤ num / den := scaled
  · rw [if_neg carries] at infinite
    have beyond := greatestExponent_lt_of_isInfinite_pack infinite
    have scaled := le_of_unitExponent numPositive denPositive (by omega)
    have powers : (2 : ℚ) ^ (972 : Int) ≤ 2 ^ unitExponent num den :=
      zpow_le_zpow_right₀ one_le_two (by omega)
    rw [le_div_iff₀ (by positivity)] at scaled
    calc
      (2 : ℚ) ^ 1024 - 2 ^ 970 ≤ 2 ^ 1024 := sub_le_self _ (by positivity)
      _ = 2 ^ 52 * 2 ^ (972 : Int) := by
        rw [← zpow_natCast, ← zpow_natCast, ← zpow_add₀ two_ne_zero]
        norm_num
      _ ≤ 2 ^ 52 * 2 ^ unitExponent num den := by
        apply mul_le_mul_of_nonneg_left powers
        norm_num
      _ ≤ num / den := scaled

theorem magnitude_pack_le (negative : Bool) (mantissa : Nat) (exponent : Int) :
    (pack negative mantissa exponent).magnitude ≤ mantissa * 2 ^ exponent := by
  unfold pack
  split
  · have nothing : (Binary64.infinite negative).magnitude = 0 := by
      simp [magnitude, ratio]
    rw [nothing]
    positivity
  · apply le_of_eq
    unfold magnitude ratio
    dsimp only
    split
    · rename_i up
      obtain ⟨size, rfl⟩ := Int.eq_ofNat_of_zero_le up
      simp only [Int.toNat_natCast, Nat.pow_eq, Nat.cast_mul, Nat.cast_pow, Nat.cast_ofNat,
        zpow_natCast, Nat.cast_one, div_one]
    · rename_i down
      obtain ⟨size, same⟩ : ∃ size : Nat, exponent = -size := ⟨(-exponent).toNat, by omega⟩
      subst same
      simp only [neg_neg, Int.toNat_natCast, Nat.pow_eq, Nat.cast_pow, Nat.cast_ofNat, zpow_neg,
        zpow_natCast]
      rw [div_eq_mul_inv]

/-- Rounding adds at most an eighth. -/
theorem magnitude_ofRatio_le
    {num den : Nat} (denPositive : 0 < den) (large : den ≤ num) (negative : Bool) :
    (ofRatio negative num den).magnitude ≤ 9 / 8 * (num / den) := by
  have numPositive : 0 < num := by omega
  have rounded := ofRatio_eq numPositive denPositive negative
  have mantissa := le_mantissa num denPositive (unitExponent num den)
  dsimp only at rounded mantissa
  have normal : unitExponent num den ≠ leastExponent := by
    have logs : Nat.log2 den ≤ Nat.log2 num :=
      (Nat.le_log2 numPositive.ne').mpr ((Nat.log2_self_le denPositive.ne').trans large)
    have least : leastExponent = -1074 := rfl
    have guess : (Nat.log2 num : Int) - Nat.log2 den - 52 ≤
        max ((Nat.log2 num : Int) - Nat.log2 den - 52) leastExponent := le_max_left _ _
    unfold unitExponent
    dsimp only
    split
    · omega
    · omega
  have scaled := le_of_unitExponent numPositive denPositive normal
  have positive : (0 : ℚ) < 2 ^ unitExponent num den := by positivity
  have packed :
      (ofRatio negative num den).magnitude ≤
        roundDiv (inUnits num den (unitExponent num den)).1
          (inUnits num den (unitExponent num den)).2 * 2 ^ unitExponent num den := by
    rw [rounded]
    split
    · rename_i carries
      refine (magnitude_pack_le _ _ _).trans (le_of_eq ?_)
      rw [carries, zpow_add_one₀ two_ne_zero]
      push_cast
      ring
    · exact magnitude_pack_le _ _ _
  calc
    (ofRatio negative num den).magnitude ≤ _ := packed
    _ ≤ (num / den / 2 ^ unitExponent num den + 1 / 2) * 2 ^ unitExponent num den :=
      mul_le_mul_of_nonneg_right mantissa positive.le
    _ ≤ (9 / 8 * (num / den / 2 ^ unitExponent num den)) * 2 ^ unitExponent num den := by
      apply mul_le_mul_of_nonneg_right _ positive.le
      linarith
    _ = 9 / 8 * (num / den) := by
      rw [mul_assoc, div_mul_cancel₀ _ positive.ne']

/-! ## Powers and products -/

theorem ratio_pos (value : Binary64) : 0 < value.ratio.2 := by
  unfold ratio
  split
  · split
    · exact Nat.one_pos
    · exact Nat.two_pow_pos _
  · exact Nat.one_pos

theorem magnitude_nonneg (value : Binary64) : 0 ≤ value.magnitude := by
  unfold magnitude
  positivity

theorem isInfinite_times_of_lt
    {x y : Binary64} (small : x.magnitude * y.magnitude < 2 ^ 1024 - 2 ^ 970) :
    (x.times y).isInfinite = false := by
  rw [Bool.eq_false_iff]
  intro infinite
  rw [times] at infinite
  by_cases nothing : x.ratio.1 * y.ratio.1 = 0
  · rw [ofRatio, if_pos (.inl nothing)] at infinite
    cases infinite
  · have beyond :=
      le_of_isInfinite_ofRatio (Nat.pos_of_ne_zero nothing)
        (Nat.mul_pos x.ratio_pos y.ratio_pos) infinite
    rw [magnitude, magnitude, div_mul_div_comm] at small
    rw [Nat.cast_mul, Nat.cast_mul] at beyond
    exact absurd small (not_lt.mpr beyond)

theorem magnitude_ofDecimal_le
    {digits exponent : Nat} (bits : Nat.log2 digits + exponent * 3321 / 1000 ≤ 1100)
    (negative : Bool) :
    (ofDecimal negative digits exponent).magnitude ≤ 9 / 8 * (digits * 10 ^ exponent) := by
  by_cases nothing : digits = 0
  · have noMantissa : (zero negative).ratio.1 = 0 := rfl
    rw [ofDecimal, if_pos nothing, magnitude, noMantissa, Nat.cast_zero, zero_div]
    positivity
  · have rounded :
        ofDecimal negative digits exponent = ofRatio negative (digits * Nat.pow 10 exponent) 1 := by
      rw [ofDecimal, if_neg nothing]
      dsimp only
      rw [if_pos (Int.natCast_nonneg exponent), Int.natAbs_natCast,
        if_neg (Nat.not_lt.mpr bits), Int.toNat_natCast]
    have large : 1 ≤ digits * Nat.pow 10 exponent :=
      Nat.mul_pos (Nat.pos_of_ne_zero nothing) (Nat.pow_pos (by decide))
    have bound := magnitude_ofRatio_le Nat.one_pos large negative
    rw [rounded]
    simpa using bound

end Heredoc.Binary64
