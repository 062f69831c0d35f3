import Heredoc.Decimal.Shortest
import Heredoc.Text.Quoted
import Heredoc.Yaml.NodeTag

/-!
# YAML values

The values that nodes stand for, when two of them are equal as keys, and how a plain scalar is
read: as null, a truth value, a whole number, a binary number or else as text.
-/

namespace Heredoc.Yaml

/-- A value; a mapping lists its entries in the order in which they were written. -/
inductive Value where
  | null
  | bool (value : Bool)
  | whole (value : Int)
  | binary (value : Binary64)
  | text (value : String)
  | sequence (items : List Value)
  | mapping (entries : List (Value × Value))
  | tagged (tag : String) (value : Value)
deriving Repr

/-! ## Equality -/

/-- A tag without its exclamation mark. -/
def bareTag (tag : String) : List Char :=
  match tag.toList with
  | '!' :: c :: rest => c :: rest
  | cs => cs

mutual

/-- Equality of values: numbers by value, mappings whatever the order of their entries. -/
def Value.same : Value → Value → Bool
  | .null, .null => true
  | .bool a, .bool b => a == b
  | .whole a, .whole b => a == b
  | .binary a, .binary b => a.sameValue b
  | .text a, .text b => a == b
  | .sequence a, .sequence b => Value.sameItems a b
  | .mapping a, .mapping b => a.length == b.length && Value.sameEntries a b
  | .tagged tag a, .tagged other b => bareTag tag == bareTag other && Value.same a b
  | _, _ => false

/-- Equality of items one by one. -/
def Value.sameItems : List Value → List Value → Bool
  | [], [] => true
  | a :: as, b :: bs => Value.same a b && Value.sameItems as bs
  | _, _ => false

/-- Whether each entry has an equal one among the others. -/
def Value.sameEntries : List (Value × Value) → List (Value × Value) → Bool
  | [], _ => true
  | (key, value) :: rest, others =>
      (others.any fun other => Value.same key other.1 && Value.same value other.2) &&
        Value.sameEntries rest others

end

/-! ## Plain scalars -/

/-- The number that digits write in a radix. -/
def readDigits? (radix : Nat) (cs : List Char) : Option Nat :=
  let value? (c : Char) : Option Nat :=
    let digit :=
      if c.isDigit then some (c.toNat - '0'.toNat)
      else if c.isLower then some (c.toNat - 'a'.toNat + 10)
      else if c.isUpper then some (c.toNat - 'A'.toNat + 10)
      else none
    digit.filter (· < radix)
  if cs.isEmpty then none
  else (cs.mapM value?).map fun digits => digits.foldl (fun n d => n * radix + d) 0

/-- Whether digits have a zero in front, which makes them text. -/
def hasLeadingZero (cs : List Char) : Bool :=
  let digits := match cs with
    | '-' :: rest => rest
    | '+' :: rest => rest
    | _ => cs
  match digits with
  | '0' :: c :: rest => (c :: rest).all Char.isDigit
  | _ => false

/-- A number without sign: hexadecimal, octal, binary or decimal. -/
def readMagnitude? : List Char → Option Nat
  | '0' :: 'x' :: rest => readDigits? 16 rest
  | '0' :: 'o' :: rest => readDigits? 8 rest
  | '0' :: 'b' :: rest => readDigits? 2 rest
  | cs => if hasLeadingZero cs then none else readDigits? 10 cs

/-- A whole number of at most 128 bits. -/
def readWhole? (cs : List Char) : Option Int :=
  match cs with
  | '-' :: rest =>
      (readMagnitude? rest).bind fun n => if n ≤ Nat.pow 2 127 then some (-(n : Int)) else none
  | '+' :: rest => (readMagnitude? rest).bind fun n => if n < Nat.pow 2 128 then some n else none
  | _ => (readMagnitude? cs).bind fun n => if n < Nat.pow 2 128 then some n else none

/-- The exponent at the end of a binary number. -/
def readExponent? : List Char → Option Int
  | [] => some 0
  | c :: rest =>
      if c == 'e' || c == 'E' then
        match rest with
        | '-' :: digits => (readDigits? 10 digits).map fun n => -(n : Int)
        | '+' :: digits => (readDigits? 10 digits).map Int.ofNat
        | digits => (readDigits? 10 digits).map Int.ofNat
      else none

/-- A finite number in decimal notation: digits with an optional point and exponent. -/
def readDecimal? (cs : List Char) : Option Binary64 :=
  let (negative, body) := match cs with
    | '-' :: rest => (true, rest)
    | _ => (false, cs)
  let whole := body.takeWhile Char.isDigit
  let (fraction, rest) := match body.drop whole.length with
    | '.' :: rest => (rest.takeWhile Char.isDigit, rest.dropWhile Char.isDigit)
    | rest => ([], rest)
  match readDigits? 10 (whole ++ fraction), readExponent? rest with
  | some digits, some exponent =>
      let value := Binary64.ofDecimal negative digits (exponent - fraction.length)
      if value.isInfinite then none else some value
  | _, _ => none

/-- A binary number: a special value by its name, or a decimal. -/
def readBinary? (cs : List Char) : Option Binary64 :=
  let unsigned? := match cs with
    | '+' :: '+' :: _ => none
    | '+' :: '-' :: _ => none
    | '+' :: rest => some rest
    | _ => some cs
  unsigned?.bind fun unsigned =>
    if [".inf", ".Inf", ".INF"].contains (String.ofList unsigned) then some (.infinite false)
    else if ["-.inf", "-.Inf", "-.INF"].contains (String.ofList cs) then some (.infinite true)
    else if [".nan", ".NaN", ".NAN"].contains (String.ofList cs) then some .nan
    else readDecimal? unsigned

/-- The words for nothing. -/
def isNullWord (text : String) : Bool :=
  ["null", "Null", "NULL", "~"].contains text

/-- The words for truth values. -/
def readBool? (text : String) : Option Bool :=
  if ["true", "True", "TRUE"].contains text then some true
  else if ["false", "False", "FALSE"].contains text then some false
  else none

/-- A whole number as a value; one that does not fit 64 bits is refused. -/
def wholeValue (n : Int) : Except String Value :=
  if n ≥ UInt64.size then
    .error ("invalid type: integer `" ++ toString n ++ "` as u128, expected any YAML value")
  else if n < Int64.minValue.toInt then
    .error ("invalid type: integer `" ++ toString n ++ "` as i128, expected any YAML value")
  else .ok (.whole n)

/-- The value of a plain scalar without a tag. -/
def plainValue (text : String) : Except String Value :=
  let cs := text.toList
  if cs.isEmpty || isNullWord text then .ok .null
  else if let some value := readBool? text then .ok (.bool value)
  else if let some n := readWhole? cs then wholeValue n
  else if hasLeadingZero cs then .ok (.text text)
  else if let some value := readBinary? cs then .ok (.binary value)
  else .ok (.text text)

/-- The refusal of a scalar that its tag does not allow. -/
def wrongScalar (text expected : String) : Except String Value :=
  .error ("invalid value: string " ++ Text.quoted text ++ ", expected " ++ expected)

/-- The value of a scalar. A core tag decides how it is read, any other tag makes it text, and
without a tag that can be read it is text unless it is plain. -/
def scalarValue (plain : Bool) (tag : Option NodeTag) (text : String) : Except String Value :=
  match tag with
  | none | some .unreadable => if plain then plainValue text else .ok (.text text)
  | some .bool =>
      match readBool? text with
      | some value => .ok (.bool value)
      | none => wrongScalar text "a boolean"
  | some .int =>
      match readWhole? text.toList with
      | some n => wholeValue n
      | none => wrongScalar text "an integer"
  | some .float =>
      match readBinary? text.toList with
      | some value => .ok (.binary value)
      | none => wrongScalar text "a float"
  | some .null => if isNullWord text then .ok .null else wrongScalar text "null"
  | some (.own _) | some .other => .ok (.text text)

/-- The refusal of a key that comes again. -/
def repeatedKey : Value → String
  | .null => "duplicate entry with null key"
  | .bool value => "duplicate entry with key `" ++ toString value ++ "`"
  | .whole value => "duplicate entry with key " ++ toString value
  | .binary value => "duplicate entry with key " ++ Decimal.briefExponent.write value
  | .text value => "duplicate entry with key " ++ Text.quoted value
  | .sequence _ | .mapping _ | .tagged .. => "duplicate entry in YAML map"

end Heredoc.Yaml
