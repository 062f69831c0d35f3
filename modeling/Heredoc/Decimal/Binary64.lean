/-!
# Binary floating point

The values of the 64-bit binary format as exact data: a sign, a mantissa below `2 ^ 53` and a
power of two. Every operation rounds an exact quotient of natural numbers to the nearest value,
ties to the even mantissa.
-/

namespace Heredoc

/-- A value of the 64-bit binary format; a finite one is `mantissa * 2 ^ exponent`. -/
inductive Binary64 where
  | nan
  | infinite (negative : Bool)
  | finite (negative : Bool) (mantissa : Nat) (exponent : Int)
deriving DecidableEq, Repr, Inhabited

namespace Binary64

/-- The smallest exponent of a finite value. -/
def leastExponent : Int := -1074

/-- The largest exponent of a finite value. -/
def greatestExponent : Int := 971

/-- Zero with a sign. -/
def zero (negative : Bool) : Binary64 := .finite negative 0 leastExponent

/-- The quotient rounded to the nearest natural number, ties to the even one. -/
def roundDiv (num den : Nat) : Nat :=
  let quotient := num / den
  let twice := 2 * (num % den)
  if twice < den || (twice == den && quotient % 2 == 0) then quotient else quotient + 1

/-- `num / den` in units of `2 ^ exponent`, as a numerator and a denominator. -/
def inUnits (num den : Nat) (exponent : Int) : Nat × Nat :=
  if exponent ≥ 0 then (num, den * Nat.pow 2 exponent.toNat)
  else (num * Nat.pow 2 (-exponent).toNat, den)

/-- The value nearest to `num / den`. -/
def ofRatio (negative : Bool) (num den : Nat) : Binary64 :=
  if num = 0 ∨ den = 0 then zero negative
  else
    let guess := max ((Nat.log2 num : Int) - Nat.log2 den - 52) leastExponent
    let scaled := inUnits num den guess
    let exponent :=
      if scaled.1 / scaled.2 < Nat.pow 2 52 ∧ guess > leastExponent then guess - 1 else guess
    let scaled := inUnits num den exponent
    let mantissa := roundDiv scaled.1 scaled.2
    let (mantissa, exponent) :=
      if mantissa = Nat.pow 2 53 then (Nat.pow 2 52, exponent + 1) else (mantissa, exponent)
    if exponent > greatestExponent then .infinite negative
    else .finite negative mantissa exponent

/-- The value nearest to `digits * 10 ^ exponent`. Far outside the range the answer does not
depend on the digits, and no large power is formed: `10 ^ n` has more than `n * 3321 / 1000`
bits. -/
def ofDecimal (negative : Bool) (digits : Nat) (exponent : Int) : Binary64 :=
  if digits = 0 then zero negative
  else
    let powerBits := exponent.natAbs * 3321 / 1000
    if exponent ≥ 0 then
      if Nat.log2 digits + powerBits > 1100 then .infinite negative
      else ofRatio negative (digits * Nat.pow 10 exponent.toNat) 1
    else if powerBits > Nat.log2 digits + 1100 then zero negative
    else ofRatio negative digits (Nat.pow 10 (-exponent).toNat)

/-- The magnitude as a numerator and a denominator; zero for what is not finite. -/
def ratio : Binary64 → Nat × Nat
  | .finite _ mantissa exponent =>
      if exponent ≥ 0 then (mantissa * Nat.pow 2 exponent.toNat, 1)
      else (mantissa, Nat.pow 2 (-exponent).toNat)
  | _ => (0, 1)

/-- Whether the sign bit is set. -/
def isNegative : Binary64 → Bool
  | .nan => false
  | .infinite negative => negative
  | .finite negative .. => negative

/-- The rounded product of two finite magnitudes, with the sign of the first. -/
def times (x y : Binary64) : Binary64 :=
  ofRatio x.isNegative (x.ratio.1 * y.ratio.1) (x.ratio.2 * y.ratio.2)

/-- The rounded quotient of two finite magnitudes, with the sign of the first. -/
def dividedBy (x y : Binary64) : Binary64 :=
  ofRatio x.isNegative (x.ratio.1 * y.ratio.2) (x.ratio.2 * y.ratio.1)

/-- Whether the value is infinite. -/
def isInfinite : Binary64 → Bool
  | .infinite _ => true
  | _ => false

/-- Equality of values: the two zeros are equal, and not a number equals itself. -/
def sameValue : Binary64 → Binary64 → Bool
  | .finite _ 0 _, .finite _ 0 _ => true
  | x, y => decide (x = y)

end Binary64

end Heredoc
