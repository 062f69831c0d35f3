/-!
# UTF-8

Sizes of characters in bytes, prefixes measured in bytes, and the reading of bytes as text,
either strictly or with every maximal ill-formed piece replaced by U+FFFD.
-/

namespace Heredoc.Text

/-- The number of bytes that the characters take. -/
def byteLength : List Char → Nat
  | [] => 0
  | c :: rest => c.utf8Size + byteLength rest

/-- The longest run of leading characters that fits into so many bytes. -/
def fitting : Nat → List Char → List Char
  | _, [] => []
  | budget, c :: rest =>
      if c.utf8Size ≤ budget then c :: fitting (budget - c.utf8Size) rest else []

/-- The character that starts exactly at this byte offset. -/
def charAt? : Nat → List Char → Option Char
  | _, [] => none
  | 0, c :: _ => some c
  | offset + 1, c :: rest =>
      if c.utf8Size ≤ offset + 1 then charAt? (offset + 1 - c.utf8Size) rest else none

/-- The second bytes that may follow a lead byte, and how many bytes follow in all. -/
def continuation (lead : UInt8) : Option (UInt8 × UInt8 × Nat) :=
  if 0xC2 ≤ lead && lead ≤ 0xDF then some (0x80, 0xBF, 1)
  else if lead == 0xE0 then some (0xA0, 0xBF, 2)
  else if lead == 0xED then some (0x80, 0x9F, 2)
  else if 0xE1 ≤ lead && lead ≤ 0xEF then some (0x80, 0xBF, 2)
  else if lead == 0xF0 then some (0x90, 0xBF, 3)
  else if 0xF1 ≤ lead && lead ≤ 0xF3 then some (0x80, 0xBF, 3)
  else if lead == 0xF4 then some (0x80, 0x8F, 3)
  else none

/-- Reads the bytes that must follow: the first within `low` and `high`, the others any
continuation bytes. Gives the code point read so far and the rest, or where it broke off. -/
def followers (low high : UInt8) (point : Nat) :
    Nat → List UInt8 → Option Nat × List UInt8
  | 0, bytes => (some point, bytes)
  | _ + 1, [] => (none, [])
  | count + 1, b :: bytes =>
      if low ≤ b && b ≤ high then
        followers 0x80 0xBF (point * 64 + (b.toNat - 0x80)) count bytes
      else (none, b :: bytes)

/-- Reads one character, or the maximal ill-formed piece at the front. -/
def decodeChar (lead : UInt8) (bytes : List UInt8) : Option Char × List UInt8 :=
  if lead < 0x80 then (some (Char.ofNat lead.toNat), bytes)
  else match continuation lead with
    | none => (none, bytes)
    | some (low, high, count) =>
        let bits := if count = 1 then 0x1F else if count = 2 then 0x0F else 0x07
        let (point, rest) := followers low high (lead.toNat &&& bits) count bytes
        (point.map Char.ofNat, rest)

theorem length_followers_le (low high : UInt8) (point count : Nat) (bytes : List UInt8) :
    (followers low high point count bytes).2.length ≤ bytes.length := by
  induction bytes generalizing low high point count with
  | nil => cases count <;> simp [followers]
  | cons b rest ih =>
    cases count with
    | zero => simp [followers]
    | succ count =>
      simp only [followers]
      split
      · exact Nat.le_succ_of_le (ih ..)
      · simp

theorem length_decodeChar_le (lead : UInt8) (bytes : List UInt8) :
    (decodeChar lead bytes).2.length ≤ bytes.length := by
  simp only [decodeChar]
  split
  · simp
  · split
    · simp
    · exact length_followers_le ..

/-- The pieces of a byte string: characters, and `none` for each ill-formed piece. -/
def decodePieces : List UInt8 → List (Option Char)
  | [] => []
  | lead :: bytes =>
      (decodeChar lead bytes).1 :: decodePieces (decodeChar lead bytes).2
termination_by bytes => bytes.length
decreasing_by exact Nat.lt_succ_of_le (length_decodeChar_le lead bytes)

/-- The text of well-formed bytes. -/
def decode? (bytes : List UInt8) : Option String :=
  ((decodePieces bytes).mapM id).map String.ofList

/-- The text of any bytes, each ill-formed piece read as U+FFFD. -/
def decodeLossy (bytes : List UInt8) : String :=
  String.ofList ((decodePieces bytes).map fun piece => piece.getD '\uFFFD')

end Heredoc.Text
