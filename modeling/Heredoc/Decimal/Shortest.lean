import Heredoc.Decimal.Binary64

/-!
# Shortest decimals

The fewest decimal digits that read back as the same binary value, and the ways to write them.
-/

namespace Heredoc.Decimal

/-- A positive decimal `0.d₁d₂… * 10 ^ point`, its digits without trailing zeros. -/
structure Digits where
  digits : List Nat
  point : Int
deriving Repr, DecidableEq

/-- The decimal digits of a natural number. -/
def digitsOf (n : Nat) : List Nat :=
  (Nat.toDigits 10 n).map fun c => c.toNat - '0'.toNat

/-- The reals that round to a finite value: its half gaps below and above, in quarters of its
unit, and whether the ends belong to it. -/
structure Interval where
  low : Nat
  value : Nat
  high : Nat
  unit : Nat
  closed : Bool

/-- The rounding interval of `mantissa * 2 ^ exponent`. -/
def interval (mantissa : Nat) (exponent : Int) : Interval :=
  let scale := if exponent ≥ 2 then Nat.pow 2 (exponent - 2).toNat else 1
  let unit := if exponent ≥ 2 then 1 else Nat.pow 2 (2 - exponent).toNat
  let narrow := mantissa == Nat.pow 2 52 && exponent > Binary64.leastExponent
  { low := (if narrow then 4 * mantissa - 1 else 4 * mantissa - 2) * scale
    value := 4 * mantissa * scale
    high := (4 * mantissa + 2) * scale
    unit
    closed := mantissa % 2 == 0 }

/-- The `point` with `10 ^ (point - 1) ≤ num / den < 10 ^ point`. -/
def pointOf (num den : Nat) : Int :=
  if num ≥ den then (digitsOf (num / den)).length
  else 1 - ((digitsOf ((den + num - 1) / num - 1)).length : Int)

/-- Whether `count * 10 ^ exponent` lies in the interval. -/
def Interval.holds (around : Interval) (count : Nat) (exponent : Int) : Bool :=
  let num := if exponent ≥ 0 then count * Nat.pow 10 exponent.toNat * around.unit
    else count * around.unit
  let den := if exponent ≥ 0 then 1 else Nat.pow 10 (-exponent).toNat
  if around.closed then around.low * den ≤ num && num ≤ around.high * den
  else around.low * den < num && num < around.high * den

/-- The grid point with `length` digits in the interval that is nearest to the value. -/
def Interval.candidate (around : Interval) (point : Int) (length : Nat) : Option Nat :=
  let exponent := point - length
  let num := if exponent ≥ 0 then around.value else around.value * Nat.pow 10 (-exponent).toNat
  let den := if exponent ≥ 0 then around.unit * Nat.pow 10 exponent.toNat else around.unit
  let below := num / den
  let twice := 2 * (num % den)
  match around.holds below exponent && below > 0, around.holds (below + 1) exponent with
  | true, true =>
      if twice < den || (twice == den && below % 2 == 0) then some below else some (below + 1)
  | true, false => some below
  | false, true => some (below + 1)
  | false, false => none

/-- The fewest digits that read back as `mantissa * 2 ^ exponent`, a positive value. -/
def shortest (mantissa : Nat) (exponent : Int) : Digits :=
  let around := interval mantissa exponent
  let point := pointOf around.value around.unit
  let found := (List.range 17).findSome? fun n =>
    (around.candidate point (n + 1)).map fun count => (count, n + 1)
  match found with
  | none => ⟨digitsOf mantissa, point⟩
  | some (count, length) =>
      let all := digitsOf count
      { digits := (all.reverse.dropWhile (· == 0)).reverse
        point := point + (all.length : Int) - length }

/-- How a binary value is written. -/
structure Style where
  /-- Whether a decimal with this point is written without an exponent. -/
  positional : Int → Bool
  /-- Whether a positive exponent has a plus sign. -/
  plusSign : Bool
  /-- The least number of exponent digits. -/
  exponentWidth : Nat
  /-- The text of positive infinity. -/
  infinity : String
  /-- The text of not a number. -/
  nan : String

/-- Digits as text. -/
def digitText (digits : List Nat) : String :=
  String.ofList (digits.map fun d => Char.ofNat ('0'.toNat + d))

/-- So many zeros. -/
def zeros (count : Int) : String :=
  String.ofList (List.replicate count.toNat '0')

/-- Digits around a point, with at least one digit on each side. -/
def positionalText (decimal : Digits) : String :=
  let count : Int := decimal.digits.length
  if decimal.point ≤ 0 then "0." ++ zeros (-decimal.point) ++ digitText decimal.digits
  else if decimal.point ≥ count then
    digitText decimal.digits ++ zeros (decimal.point - count) ++ ".0"
  else
    digitText (decimal.digits.take decimal.point.toNat) ++ "." ++
      digitText (decimal.digits.drop decimal.point.toNat)

/-- One digit before the point and an exponent behind. -/
def scientificText (style : Style) (decimal : Digits) : String :=
  let exponent := decimal.point - 1
  let sign := if exponent < 0 then "-" else if style.plusSign then "+" else ""
  let magnitude := toString exponent.natAbs
  let padding := zeros ((style.exponentWidth : Int) - magnitude.length)
  let fraction := decimal.digits.drop 1
  digitText (decimal.digits.take 1) ++
    (if fraction.isEmpty then "" else "." ++ digitText fraction) ++
    "e" ++ sign ++ padding ++ magnitude

/-- The text of a binary value. -/
def Style.write (style : Style) : Binary64 → String
  | .nan => style.nan
  | .infinite negative => (if negative then "-" else "") ++ style.infinity
  | .finite negative mantissa exponent =>
      (if negative then "-" else "") ++
        if mantissa = 0 then "0.0"
        else
          let decimal := shortest mantissa exponent
          if style.positional decimal.point then positionalText decimal
          else scientificText style decimal

/-- Positional from five zeros after the point up to sixteen digits before it; an exponent has a
sign and at least two digits. -/
def signedExponent : Style where
  positional point := -5 < point && point ≤ 16
  plusSign := true
  exponentWidth := 2
  infinity := "inf"
  nan := "NaN"

/-- Positional from five zeros after the point up to sixteen digits before it; an exponent is
written as briefly as can be, and the special values have a leading point. -/
def briefExponent : Style where
  positional point := -5 < point && point ≤ 16
  plusSign := false
  exponentWidth := 1
  infinity := ".inf"
  nan := ".nan"

/-- Always positional. -/
def neverExponent : Style where
  positional _ := true
  plusSign := false
  exponentWidth := 1
  infinity := "inf"
  nan := "NaN"

end Heredoc.Decimal
