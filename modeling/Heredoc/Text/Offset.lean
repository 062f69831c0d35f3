import Heredoc.Position
import Heredoc.Text.Utf8
import Heredoc.Text.Search

/-!
# Offsets

Byte offsets, pairs of line and byte column, and positions counted in characters.
-/

namespace Heredoc.Text

/-- The characters after the last line feed. -/
def lastLine (cs : List Char) : List Char :=
  afterLast '\n' cs

/-- The number of the line that a byte offset is on, from one, and the number of bytes between
the start of that line and the offset. -/
def lineColumn (cs : List Char) (offset : Nat) : Nat × Nat :=
  let before := fitting offset cs
  (before.count '\n' + 1, offset - (byteLength before - byteLength (lastLine before)))

/-- The byte offset at which a line starts, lines counted from zero; past the last line it is the
end. -/
def lineStart : Nat → List Char → Nat
  | 0, _ => 0
  | _, [] => 0
  | line + 1, c :: rest =>
      c.utf8Size + lineStart (if c = '\n' then line else line + 1) rest

/-- The number of bytes up to the first line feed at or after a byte offset. -/
def bytesToLineEnd (cs : List Char) (offset : Nat) : Nat :=
  byteLength ((cs.drop (fitting offset cs).length).takeWhile (· ≠ '\n'))

/-- The byte offset of a line and a byte column, both from zero, kept within the line. The column is
added as a number of any size; for machine words see `offsetInWords?`. -/
def offsetOf (cs : List Char) (line column : Nat) : Nat :=
  let start := lineStart line cs
  min (start + column) (start + bytesToLineEnd cs start)

/-- What comes of a sum of machine words that does not fit into one: the program stops there, or it
goes on with what is left of the sum. -/
inductive Overflow where
  | stops
  | wraps
deriving DecidableEq, Repr

/-- The sum of two machine words of 64 bits. -/
def Overflow.sum? (overflow : Overflow) (word other : Nat) : Option Nat :=
  if word + other < UInt64.size then some (word + other)
  else
    match overflow with
    | .stops => none
    | .wraps => some ((word + other) % UInt64.size)

/-- The byte offset of a line and a byte column where the column is added as a machine word. -/
def offsetInWords? (overflow : Overflow) (cs : List Char) (line column : Nat) : Option Nat :=
  let start := lineStart line cs
  (overflow.sum? start column).map (min · (start + bytesToLineEnd cs start))

/-- The position of a byte offset, its character counted in characters. An offset inside a
character is moved to its start, one past the end to the end. -/
def positionAt (cs : List Char) (offset : Nat) : Position :=
  let before := fitting offset cs
  ⟨clamp32 (before.count '\n'), clamp32 (lastLine before).length⟩

/-- The message without the location text that starts at ` at line `. -/
def stripLocation (message : String) : String :=
  match before? " at line ".toList message.toList with
  | some kept => String.ofList kept
  | none => message

end Heredoc.Text
