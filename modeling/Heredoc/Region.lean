/-!
# Regions

A region is a tagged heredoc body: the lines from `bodyStart` up to, not including, the
terminator line `bodyEnd`.
-/

namespace Heredoc

/-- A tagged body; it is empty when `bodyEnd` does not exceed `bodyStart`. -/
structure Region where
  tag : String
  bodyStart : Nat
  bodyEnd : Nat
deriving DecidableEq, Repr, Inhabited

namespace Region

/-- The number of body lines. -/
def bodyLength (region : Region) : Nat :=
  region.bodyEnd - region.bodyStart

/-- Whether there is no body line. -/
def isEmpty (region : Region) : Bool :=
  region.bodyLength = 0

/-- The indices of the body lines. -/
def lines (region : Region) : List Nat :=
  (List.range region.bodyLength).map (region.bodyStart + ·)

/-- The line of the start marker. -/
def markerLine (region : Region) : Nat :=
  region.bodyStart - 1

/-- The line of the terminator. -/
def terminatorLine (region : Region) : Nat :=
  region.bodyEnd

/-- Whether two regions share a body line. -/
def overlaps (region other : Region) : Bool :=
  region.bodyStart < other.bodyEnd && other.bodyStart < region.bodyEnd

end Region

end Heredoc
