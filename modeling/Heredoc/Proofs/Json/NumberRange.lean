import Heredoc.Proofs.Decimal.Rounding
import Heredoc.Proofs.Json.Numerals

/-!
# Which numbers are in range

The digits of a number that are kept make no more than its value (`absorbed_le`), and what is kept
is scaled by a power of ten with two roundings. Main statement: a number whose magnitude is below
`10 ^ 308` is in range (`Numeral.inRange_of_magnitude_lt`).
-/

namespace Heredoc.Json

open Binary64

/-! ## Scaling -/

theorem roundings_lt {value : ℚ} (small : value < 10 ^ 308) :
    9 / 8 * (9 / 8 * value) < 2 ^ 1024 - 2 ^ 970 := by
  have room : 81 * 10 ^ 308 + 64 * 2 ^ 970 ≤ 64 * 2 ^ 1024 := by decide +kernel
  have roomRat : (81 : ℚ) * 10 ^ 308 + 64 * 2 ^ 970 ≤ 64 * 2 ^ 1024 := by exact_mod_cast room
  generalize (10 : ℚ) ^ 308 = bound at small roomRat
  generalize (2 : ℚ) ^ 970 = gap at roomRat ⊢
  generalize (2 : ℚ) ^ 1024 = limit at roomRat ⊢
  linarith

theorem log2_lt_of_lt
    {value bound bits : Nat}
    (small : value < bound) (room : bound ≤ 2 ^ bits) (positive : 0 < bits) :
    Nat.log2 value < bits := by
  by_cases nothing : value = 0
  · rw [nothing, Nat.log2_zero]
    exact positive
  · exact (Nat.log2_lt nothing).mpr (small.trans_le room)

theorem isInfinite_product
    {significand size : Nat} (small : significand * 10 ^ size < 10 ^ 308) (fits : size ≤ 308)
    (negative : Bool) :
    ((ofDecimal negative significand 0).times (Number.power size)).isInfinite = false := by
  have significandSmall : significand < 10 ^ 308 :=
    Nat.lt_of_le_of_lt (Nat.le_mul_of_pos_right _ (Nat.pow_pos (by decide))) small
  have log : Nat.log2 significand < 1024 :=
    log2_lt_of_lt significandSmall (by decide +kernel) (by decide)
  have base :=
    magnitude_ofDecimal_le (by omega : Nat.log2 significand + 0 * 3321 / 1000 ≤ 1100) negative
  have powerBits : Nat.log2 1 + size * 3321 / 1000 ≤ 1100 := by
    have one : Nat.log2 1 = 0 := by decide
    omega
  have power := magnitude_ofDecimal_le powerBits false
  have smallRat : (significand : ℚ) * 10 ^ size < 10 ^ 308 := by exact_mod_cast small
  apply isInfinite_times_of_lt
  rw [pow_zero, mul_one] at base
  rw [Nat.cast_one, one_mul] at power
  calc
    (ofDecimal negative significand 0).magnitude * (Number.power size).magnitude ≤
        9 / 8 * significand * (9 / 8 * 10 ^ size) :=
      mul_le_mul base power (magnitude_nonneg _) (by positivity)
    _ = 9 / 8 * (9 / 8 * (significand * 10 ^ size)) := by ring
    _ < 2 ^ 1024 - 2 ^ 970 := roundings_lt smallRat

/-- A magnitude below `10 ^ 308` is not too large to be scaled. -/
theorem exists_scale
    {significand : Nat} {exponent : Int}
    (small : (significand : ℚ) * 10 ^ exponent < 10 ^ 308) (negative : Bool) :
    ∃ value, Number.scale negative significand exponent = some value := by
  unfold Number.scale
  dsimp only
  split
  · rename_i up
    obtain ⟨size, rfl⟩ := Int.eq_ofNat_of_zero_le up
    rw [zpow_natCast] at small
    have smallNat : significand * 10 ^ size < 10 ^ 308 := by exact_mod_cast small
    by_cases fits : size ≤ 308
    · rw [if_pos (by omega), Int.toNat_natCast, isInfinite_product smallNat fits]
      exact ⟨_, rfl⟩
    · have nothing : significand = 0 := by
        by_contra more
        have larger : 10 ^ 308 ≤ significand * 10 ^ size :=
          calc
            10 ^ 308 ≤ 10 ^ size := pow_le_pow_right₀ (by decide) (by omega)
            _ ≤ significand * 10 ^ size := Nat.le_mul_of_pos_left _ (Nat.pos_of_ne_zero more)
        exact absurd smallNat (Nat.not_lt.mpr larger)
      rw [if_neg (by omega), if_pos nothing]
      exact ⟨_, rfl⟩
  · split
    · exact ⟨_, rfl⟩
    · split
      all_goals exact ⟨_, rfl⟩

/-! ## Digits -/

theorem ofDigitChars_cons_digit (c : Char) (digits : List Char) (significand : Nat) :
    Nat.ofDigitChars 10 (c :: digits) significand =
      Nat.ofDigitChars 10 digits (significand * 10 + Number.digit c) := by
  rw [Nat.ofDigitChars_cons, Nat.mul_comm]
  rfl

theorem mul_pow_le_ofDigitChars (digits : List Char) (significand : Nat) :
    significand * 10 ^ digits.length ≤ Nat.ofDigitChars 10 digits significand := by
  induction digits generalizing significand with
  | nil => exact (Nat.mul_one significand).le
  | cons c digits inductionHypothesis =>
      rw [ofDigitChars_cons_digit, List.length_cons]
      calc
        significand * 10 ^ (digits.length + 1) = significand * 10 * 10 ^ digits.length := by ring
        _ ≤ (significand * 10 + Number.digit c) * 10 ^ digits.length :=
          Nat.mul_le_mul_right _ (Nat.le_add_right _ _)
        _ ≤ _ := inductionHypothesis _

/-- Whole digits that are left over are cut off; the first of them did not fit 64 bits. -/
theorem absorbWhole_le
    {digits : List Char} {significand result skipped : Nat}
    (absorbed : Number.absorbWhole significand digits = (result, skipped)) :
    result * 10 ^ skipped ≤ Nat.ofDigitChars 10 digits significand ∧
      (0 < skipped →
        UInt64.size * 10 ^ (skipped - 1) ≤ Nat.ofDigitChars 10 digits significand) := by
  induction digits generalizing significand with
  | nil =>
      cases absorbed
      exact ⟨(Nat.mul_one _).le, nofun⟩
  | cons c digits inductionHypothesis =>
      rw [Number.absorbWhole] at absorbed
      split at absorbed
      · rw [ofDigitChars_cons_digit]
        exact inductionHypothesis absorbed
      · rename_i refused
        obtain ⟨rfl, rfl⟩ := Prod.mk.inj absorbed
        have large : UInt64.size ≤ significand * 10 + Number.digit c := by
          by_contra less
          exact refused (decide_eq_true (Nat.not_le.mp less))
        have bound := mul_pow_le_ofDigitChars digits (significand * 10 + Number.digit c)
        rw [← ofDigitChars_cons_digit] at bound
        exact ⟨mul_pow_le_ofDigitChars (c :: digits) significand,
          fun _ => (Nat.mul_le_mul_right _ large).trans bound⟩

theorem absorbFraction_le
    {digits : List Char} {significand result taken : Nat}
    (absorbed : Number.absorbFraction significand digits = (result, taken)) :
    (result : ℚ) / 10 ^ taken ≤
        Nat.ofDigitChars 10 digits significand / 10 ^ digits.length ∧
      (taken = 0 → result = significand) ∧ (0 < taken → result < UInt64.size) := by
  induction digits generalizing significand result taken with
  | nil =>
      cases absorbed
      exact ⟨le_rfl, fun _ => rfl, nofun⟩
  | cons c digits inductionHypothesis =>
      rw [Number.absorbFraction] at absorbed
      split at absorbed
      · rename_i fits
        cases rest : Number.absorbFraction (significand * 10 + Number.digit c) digits with
        | mk inner count =>
            rw [rest] at absorbed
            obtain ⟨rfl, rfl⟩ := Prod.mk.inj absorbed
            obtain ⟨bound, same, small⟩ := inductionHypothesis rest
            refine ⟨?_, nofun, fun _ => ?_⟩
            · rw [ofDigitChars_cons_digit, List.length_cons, pow_succ, pow_succ, ← div_div,
                ← div_div]
              exact div_le_div_of_nonneg_right bound (by norm_num)
            · rcases Nat.eq_zero_or_pos count with nothing | more
              · rw [same nothing]
                exact of_decide_eq_true fits
              · exact small more
      · obtain ⟨rfl, rfl⟩ := Prod.mk.inj absorbed
        refine ⟨?_, fun _ => rfl, nofun⟩
        rw [pow_zero, div_one, le_div_iff₀ (by positivity)]
        exact_mod_cast mul_pow_le_ofDigitChars (c :: digits) significand

theorem ofDigitChars_mono {small large : Nat} (le : small ≤ large) (digits : List Char) :
    Nat.ofDigitChars 10 digits small ≤ Nat.ofDigitChars 10 digits large := by
  induction digits generalizing small large with
  | nil => exact le
  | cons c digits inductionHypothesis =>
      rw [ofDigitChars_cons_digit, ofDigitChars_cons_digit]
      exact inductionHypothesis (by omega)

/-- What is kept of the digits is not more than their value. -/
theorem absorbed_le
    {whole fraction : List Char} {kept skipped significand taken : Nat}
    (wholeRead : Number.absorbWhole 0 whole = (kept, skipped))
    (fractionRead : Number.absorbFraction kept fraction = (significand, taken)) :
    (significand : ℚ) * 10 ^ ((skipped : Int) - taken) ≤
      Nat.ofDigitChars 10 (whole ++ fraction) 0 / 10 ^ fraction.length := by
  obtain ⟨cut, beyond⟩ := absorbWhole_le wholeRead
  obtain ⟨bound, same, small⟩ := absorbFraction_le fractionRead
  have joined :
      Nat.ofDigitChars 10 (whole ++ fraction) 0 =
        Nat.ofDigitChars 10 fraction (Nat.ofDigitChars 10 whole 0) :=
    List.foldl_append
  have atLeast :
      (Nat.ofDigitChars 10 whole 0 : ℚ) ≤
        Nat.ofDigitChars 10 (whole ++ fraction) 0 / 10 ^ fraction.length := by
    rw [joined, le_div_iff₀ (by positivity)]
    exact_mod_cast mul_pow_le_ofDigitChars fraction _
  rcases Nat.eq_zero_or_pos skipped with rfl | someSkipped
  · -- All whole digits were taken in.
    rw [pow_zero, Nat.mul_one] at cut
    have larger :
        (Nat.ofDigitChars 10 fraction kept : ℚ) ≤ Nat.ofDigitChars 10 (whole ++ fraction) 0 := by
      rw [joined]
      exact_mod_cast ofDigitChars_mono cut fraction
    calc
      (significand : ℚ) * 10 ^ (((0 : Nat) : Int) - taken) = significand / 10 ^ taken := by
        rw [Nat.cast_zero, zero_sub, zpow_neg, zpow_natCast, div_eq_mul_inv]
      _ ≤ Nat.ofDigitChars 10 fraction kept / 10 ^ fraction.length := bound
      _ ≤ _ := div_le_div_of_nonneg_right larger (by positivity)
  rcases Nat.eq_zero_or_pos taken with rfl | someTaken
  · rw [same rfl, Nat.cast_zero, sub_zero, zpow_natCast]
    exact le_trans (by exact_mod_cast cut) atLeast
  · -- A fraction digit still went in; the result fits 64 bits, which the whole digits did not.
    have power : (10 : ℚ) ^ ((skipped : Int) - taken) ≤ 10 ^ (skipped - 1) := by
      rw [← zpow_natCast]
      exact zpow_le_zpow_right₀ (by norm_num) (by omega)
    calc
      (significand : ℚ) * 10 ^ ((skipped : Int) - taken) ≤ UInt64.size * 10 ^ (skipped - 1) := by
        apply mul_le_mul _ power (by positivity) (by positivity)
        exact_mod_cast (small someTaken).le
      _ ≤ Nat.ofDigitChars 10 whole 0 := by exact_mod_cast beyond someSkipped
      _ ≤ _ := atLeast

theorem readExponent_eq
    {digits : List Char} {value : Nat} (read : Nat)
    (counted : Nat.ofDigitChars 10 digits value ≤ Number.exponentLimit) :
    Number.readExponent value read digits =
      (some (Nat.ofDigitChars 10 digits value), read + digits.length) := by
  induction digits generalizing value read with
  | nil => rfl
  | cons c digits inductionHypothesis =>
      rw [ofDigitChars_cons_digit] at counted ⊢
      have fits : ¬ value * 10 + Number.digit c > Number.exponentLimit :=
        Nat.not_lt.mpr ((le_ofDigitChars digits _).trans counted)
      rw [Number.readExponent, if_neg fits, inductionHypothesis (read + 1) counted,
        List.length_cons, Nat.add_assoc, Nat.add_comm 1]

/-! ## Numbers in range -/

namespace Numeral

/-- The value of the digits without sign and exponent. -/
def digitsValue (numeral : Numeral) : ℚ :=
  let fraction := (numeral.fraction.map Digits.chars).getD []
  Nat.ofDigitChars 10 (numeral.whole ++ fraction) 0 / 10 ^ fraction.length

/-- The power of ten that the exponent stands for. -/
def exponentValue : Option (Bool × Digits) → Int
  | none => 0
  | some (true, digits) => -(Nat.ofDigitChars 10 digits.chars 0 : Int)
  | some (false, digits) => Nat.ofDigitChars 10 digits.chars 0

/-- The number without its sign. -/
def magnitude (numeral : Numeral) : ℚ :=
  numeral.digitsValue * 10 ^ exponentValue numeral.exponent

theorem parts_le (numeral : Numeral) (start stop : Nat) :
    ((numeral.number start stop).parts.1 : ℚ) * 10 ^ (numeral.number start stop).parts.2 ≤
      numeral.digitsValue := by
  unfold digitsValue Number.parts
  dsimp only [Numeral.number]
  exact absorbed_le rfl rfl

/-- A number below `10 ^ 308` is in range, if its exponent can be counted. -/
theorem inRange_of_magnitude_lt
    {numeral : Numeral}
    (counted :
      ∀ negative digits,
        numeral.exponent = some (negative, digits) →
          Nat.ofDigitChars 10 digits.chars 0 ≤ Number.exponentLimit)
    (small : numeral.magnitude < 10 ^ 308) :
    numeral.InRange := by
  have kept := numeral.parts_le 0 0
  have scaled (exponent : Int)
      (same : exponent = (numeral.number 0 0).parts.2 + exponentValue numeral.exponent) :
      ∃ value,
        Number.scale numeral.negative (numeral.number 0 0).parts.1 exponent = some value := by
    apply exists_scale
    rw [same, zpow_add₀ (by norm_num), ← mul_assoc]
    exact lt_of_le_of_lt (mul_le_mul_of_nonneg_right kept (by positivity)) small
  rw [InRange, Number.value]
  generalize (numeral.number 0 0).parts = parts at scaled ⊢
  obtain ⟨significand, shift⟩ := parts
  cases shown : numeral.exponent with
  | none =>
      obtain ⟨value, isValue⟩ := scaled shift (by rw [shown]; exact (add_zero shift).symm)
      dsimp only at isValue
      simp only [Numeral.number, shown, Option.map_none, isValue]
      split
      · exact ⟨_, rfl⟩
      · split
        · exact ⟨_, rfl⟩
        · split
          all_goals exact ⟨_, rfl⟩
  | some exponent =>
      obtain ⟨negative, digits⟩ := exponent
      have read := readExponent_eq 0 (counted negative digits shown)
      cases negative with
      | true =>
          obtain ⟨value, isValue⟩ :=
            scaled (shift - Nat.ofDigitChars 10 digits.chars 0) (by rw [shown]; rfl)
          dsimp only at isValue
          simp only [Numeral.number, shown, Option.map_some, read, if_true, isValue]
          exact ⟨_, rfl⟩
      | false =>
          obtain ⟨value, isValue⟩ :=
            scaled (shift + Nat.ofDigitChars 10 digits.chars 0) (by rw [shown]; rfl)
          dsimp only at isValue
          simp only [Numeral.number, shown, Option.map_some, read, Bool.false_eq_true, if_false,
            isValue]
          exact ⟨_, rfl⟩

end Numeral

end Heredoc.Json
