/-!
# Positions and ranges

Lines and characters count from zero in 32 bits, and additions stop at the largest value.
Main statement: within 32 bits a shift by lines is plain addition.
-/

namespace Heredoc

/-- The 32-bit number nearest to a natural number. -/
def clamp32 (n : Nat) : UInt32 :=
  if n < UInt32.size then n.toUInt32 else 0xFFFFFFFF

theorem toNat_clamp32 (n : Nat) : (clamp32 n).toNat = min n (UInt32.size - 1) := by
  have size : UInt32.size = 4294967296 := rfl
  unfold clamp32
  split
  · rename_i h
    simp only [Nat.toUInt32_eq, UInt32.toNat_ofNat', Nat.mod_eq_of_lt h]
    omega
  · simp only [UInt32.reduceToNat]
    omega

/-- A line and a character in it, both from zero; compared by line first. -/
structure Position where
  line : UInt32
  character : UInt32
deriving DecidableEq, Repr, Inhabited, Ord

namespace Position

/-- Moves a position down, stopping at the last line that can be written. -/
def offsetLines (at_ : Position) (lines : UInt32) : Position :=
  { at_ with line := clamp32 (at_.line.toNat + lines.toNat) }

/-- As long as the sum fits, a shift adds the lines. -/
theorem toNat_line_offsetLines (at_ : Position) (lines : UInt32)
    (fits : at_.line.toNat + lines.toNat < UInt32.size) :
    (at_.offsetLines lines).line.toNat = at_.line.toNat + lines.toNat := by
  simp only [offsetLines, toNat_clamp32]
  omega

@[simp] theorem character_offsetLines (at_ : Position) (lines : UInt32) :
    (at_.offsetLines lines).character = at_.character := rfl

end Position

/-- The span from `start` up to, not including, `stop`. -/
structure Range where
  start : Position
  stop : Position
deriving DecidableEq, Repr, Inhabited, Ord

namespace Range

/-- The zero-width range at the start of a line. -/
def lineStart (line : UInt32) : Range :=
  ⟨⟨line, 0⟩, ⟨line, 0⟩⟩

/-- The range of one character; at the largest character number it is empty. -/
def singleChar (line character : UInt32) : Range :=
  ⟨⟨line, character⟩, ⟨line, clamp32 (character.toNat + 1)⟩⟩

/-- Whether nothing lies in the range. -/
def isEmpty (range : Range) : Bool :=
  range.start = range.stop

/-- Moves both ends down. -/
def offsetLines (range : Range) (lines : UInt32) : Range :=
  ⟨range.start.offsetLines lines, range.stop.offsetLines lines⟩

end Range

end Heredoc
