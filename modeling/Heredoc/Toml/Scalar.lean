import Heredoc.Toml.Moment
import Heredoc.Toml.Text
import Heredoc.Toml.Value

/-!
# Unquoted values in TOML

Truth values, whole numbers, binary numbers, dates and times: what a word without quotes stands
for.
-/

namespace Heredoc.Toml

/-- Whether underscores stand only between two other characters. -/
def spacedWell : List Char → Bool
  | [] => true
  | ['_'] => false
  | '_' :: '_' :: _ => false
  | _ :: rest => spacedWell rest

/-- The number that digits write in a radix; underscores may stand between digits. -/
def readDigits? (radix : Nat) (cs : List Char) : Option Nat :=
  if cs.isEmpty || cs.head? = some '_' || !spacedWell cs then none
  else
    ((cs.filter (· ≠ '_')).mapM fun c => (hexDigit? c).filter (· < radix)).map fun digits =>
      digits.foldl (fun n d => n * radix + d) 0

/-- Whether digits have a zero in front that they do not need. -/
def hasIdleZero : List Char → Bool
  | '0' :: _ :: _ => true
  | _ => false

/-- The sign in front of a number, and the rest. -/
def splitSign : List Char → Bool × List Char
  | '-' :: rest => (true, rest)
  | '+' :: rest => (false, rest)
  | cs => (false, cs)

/-- A whole number in decimal digits. -/
def readDecimalWhole? (cs : List Char) : Option Int :=
  let (negative, digits) := splitSign cs
  if hasIdleZero digits then none
  else (readDigits? 10 digits).map fun n => if negative then -(n : Int) else n

/-- A whole number; one that is not decimal has no sign. -/
def readWhole? : List Char → Option Int
  | '0' :: 'x' :: digits => (readDigits? 16 digits).map Int.ofNat
  | '0' :: 'o' :: digits => (readDigits? 8 digits).map Int.ofNat
  | '0' :: 'b' :: digits => (readDigits? 2 digits).map Int.ofNat
  | cs => readDecimalWhole? cs

/-- The power of ten at the end of a number. -/
def readPower? (cs : List Char) : Option Int :=
  let (negative, digits) := splitSign cs
  (readDigits? 10 digits).map fun n => if negative then -(n : Int) else n

/-- A finite number with a fraction, an exponent, or both. -/
def readDecimal? (cs : List Char) : Option Binary64 := do
  let (negative, body) := splitSign cs
  let isMark (c : Char) : Bool := c == 'e' || c == 'E'
  let mantissa := body.takeWhile (!isMark ·)
  let whole := mantissa.takeWhile (· ≠ '.')
  let power ← match body.dropWhile (!isMark ·) with
    | [] => some 0
    | _ :: digits => readPower? digits
  let fraction ← match mantissa.drop whole.length with
    | [] => if mantissa.length = body.length then none else some []
    | _ :: digits => (readDigits? 10 digits).map fun _ => digits.filter (· ≠ '_')
  if hasIdleZero whole then none
  let front ← readDigits? 10 whole
  let digits := fraction.foldl (fun n c => n * 10 + (c.toNat - '0'.toNat)) front
  let value := Binary64.ofDecimal negative digits (power - fraction.length)
  if value.isInfinite then none else some value

/-- A binary number: infinite, not a number, or a decimal. -/
def readBinary? (cs : List Char) : Option Binary64 :=
  let (negative, body) := splitSign cs
  if body = ['i', 'n', 'f'] then some (.infinite negative)
  else if body = ['n', 'a', 'n'] then some .nan
  else readDecimal? cs

/-- What a word stands for. -/
def readWord? (cs : List Char) : Option Value :=
  if cs = ['t', 'r', 'u', 'e'] then some (.bool true)
  else if cs = ['f', 'a', 'l', 's', 'e'] then some (.bool false)
  else
    match readWhole? cs, readBinary? cs, Moment.read? cs with
    | some value, _, _ => some (.integer value)
    | none, some value, _ => some (.binary value)
    | none, none, some moment => some (.datetime moment.text)
    | none, none, none => none

/-- Whether a character ends a word. -/
def endsWord (c : Char) : Bool :=
  isSpace c || "\r\n,=#[]\x7b\x7d\"'".toList.contains c

/-- The word at the front and what follows it. A date and a time may have a space between them. -/
def splitWord (cs : List Char) : List Char × List Char :=
  let word := cs.takeWhile (!endsWord ·)
  let rest := cs.dropWhile (!endsWord ·)
  match readDate word, rest with
  | some (_, []), ' ' :: c :: more =>
      if c.isDigit then
        (word ++ ' ' :: (c :: more).takeWhile (!endsWord ·), (c :: more).dropWhile (!endsWord ·))
      else (word, rest)
  | _, _ => (word, rest)

end Heredoc.Toml
