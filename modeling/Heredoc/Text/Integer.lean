/-!
# Integers in text

Decimal digits with an optional sign in front, and nothing else.
-/

namespace Heredoc.Text

/-- The number that ASCII digits write; there is at least one. -/
def readNatural? (cs : List Char) : Option Nat :=
  if cs.isEmpty || !cs.all Char.isDigit then none
  else some (cs.foldl (fun n c => n * 10 + (c.toNat - '0'.toNat)) 0)

/-- A number with at most one sign that lies between two bounds. -/
def readInteger? (low high : Int) (cs : List Char) : Option Int :=
  let signed := match cs with
    | '-' :: digits => (readNatural? digits).map fun n => -(n : Int)
    | '+' :: digits => (readNatural? digits).map Int.ofNat
    | digits => (readNatural? digits).map Int.ofNat
  signed.filter fun n => low ≤ n && n ≤ high

/-- A number of 64 bits without a minus sign. -/
def readSize? (cs : List Char) : Option Nat :=
  let unsigned := match cs with
    | '+' :: digits => readNatural? digits
    | digits => readNatural? digits
  unsigned.filter (· < UInt64.size)

end Heredoc.Text
