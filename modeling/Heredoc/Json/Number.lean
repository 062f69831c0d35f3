import Heredoc.Decimal.Shortest
import Heredoc.Json.Problem

/-!
# JSON numbers

The parts of a number as written, and its value: a whole number of 64 bits, or else the binary
value computed from the leading digits that fit 64 bits and a power of ten.
-/

namespace Heredoc.Json

/-- The exponent part of a number: its sign, its digits and the offset where the digits start. -/
structure ExponentPart where
  negative : Bool
  digits : List Char
  start : Nat
deriving DecidableEq, Repr

/-- A number as written. -/
structure Number where
  negative : Bool
  whole : List Char
  fraction : Option (List Char)
  exponent : Option ExponentPart
  stop : Nat
deriving DecidableEq, Repr

/-- The value of a number. -/
inductive NumberValue where
  | whole (value : Int)
  | binary (value : Binary64)
deriving DecidableEq, Repr

namespace Number

/-- The value of a digit. -/
def digit (c : Char) : Nat := c.toNat - '0'.toNat

/-- Whether one more digit still fits 64 bits. -/
def accepts (significand : Nat) (c : Char) : Bool :=
  significand * 10 + digit c < UInt64.size

/-- Takes in whole digits as long as they fit; gives the significand and how many were left. -/
def absorbWhole : Nat → List Char → Nat × Nat
  | significand, [] => (significand, 0)
  | significand, c :: rest =>
      if accepts significand c then absorbWhole (significand * 10 + digit c) rest
      else (significand, rest.length + 1)

/-- Takes in fraction digits as long as they fit; gives the significand and how many went in. -/
def absorbFraction : Nat → List Char → Nat × Nat
  | significand, [] => (significand, 0)
  | significand, c :: rest =>
      if accepts significand c then
        let (result, taken) := absorbFraction (significand * 10 + digit c) rest
        (result, taken + 1)
      else (significand, 0)

/-- The significand and the power of ten before the exponent part is looked at. -/
def parts (number : Number) : Nat × Int :=
  let (significand, skipped) := absorbWhole 0 number.whole
  let (significand, taken) := absorbFraction significand (number.fraction.getD [])
  (significand, (skipped : Int) - taken)

/-- The largest exponent that is counted. -/
def exponentLimit : Nat := 2147483647

/-- Reads exponent digits; `none` together with the number of digits read so far as soon as the
limit is passed. -/
def readExponent (value read : Nat) : List Char → Option Nat × Nat
  | [] => (some value, read)
  | c :: rest =>
      let next := value * 10 + digit c
      if next > exponentLimit then (none, read + 1) else readExponent next (read + 1) rest

/-- A power of ten as a binary value. -/
def power (exponent : Nat) : Binary64 := .ofDecimal false 1 exponent

/-- `significand * 10 ^ exponent`, or nothing when it is too large. The significand and the power
are rounded first, then their product or quotient. -/
def scale (negative : Bool) (significand : Nat) (exponent : Int) : Option Binary64 :=
  let base := Binary64.ofDecimal negative significand 0
  if exponent ≥ 0 then
    if exponent ≤ 308 then
      let product := base.times (power exponent.toNat)
      if product.isInfinite then none else some product
    else if significand = 0 then some base
    else none
  else
    let down := (-exponent).toNat
    if down ≤ 308 then some (base.dividedBy (power down))
    else if down ≤ 616 then some ((base.dividedBy (power 308)).dividedBy (power (down - 308)))
    else some (.zero negative)

/-- The value of a number, or the problem that it is too large. -/
def value (number : Number) : Except Problem NumberValue :=
  let (significand, shift) := number.parts
  let outcome (scaled : Option Binary64) : Except Problem NumberValue :=
    match scaled with
    | some value => .ok (.binary value)
    | none => .error ⟨.numberOutOfRange, number.stop⟩
  match number.exponent with
  | some exponent =>
      match readExponent 0 0 exponent.digits with
      | (some size, _) =>
          outcome (scale number.negative significand
            (if exponent.negative then shift - size else shift + size))
      | (none, read) =>
          if significand ≠ 0 ∧ exponent.negative = false then
            .error ⟨.numberOutOfRange, exponent.start + read⟩
          else .ok (.binary (.zero number.negative))
  | none =>
      if number.fraction.isSome ∨ shift ≠ 0 then
        outcome (scale number.negative significand shift)
      else if number.negative = false then .ok (.whole significand)
      else if significand = 0 ∨ significand > UInt64.size / 2 then
        .ok (.binary (.ofDecimal true significand 0))
      else .ok (.whole (-significand))

end Number

end Heredoc.Json
