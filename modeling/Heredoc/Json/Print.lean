/-!
# Printing JSON

Values as text with two spaces for each level, one member or item a line.
-/

namespace Heredoc.Json

/-- A value to be printed; the members of an object keep their order. -/
inductive Value where
  | null
  | number (value : Nat)
  | text (value : String)
  | array (items : List Value)
  | object (members : List (String × Value))
deriving Repr

/-- A hexadecimal digit. -/
def hexDigit (n : Nat) : Char :=
  Char.ofNat (if n < 10 then '0'.toNat + n else 'a'.toNat + (n - 10))

/-- A character inside a quoted text. -/
def escapeChar (c : Char) : List Char :=
  match c with
  | '"' => ['\\', '"']
  | '\\' => ['\\', '\\']
  | '\x08' => ['\\', 'b']
  | '\x0c' => ['\\', 'f']
  | '\n' => ['\\', 'n']
  | '\r' => ['\\', 'r']
  | '\t' => ['\\', 't']
  | _ =>
      if c.toNat < 0x20 then
        ['\\', 'u', '0', '0', hexDigit (c.toNat / 16), hexDigit (c.toNat % 16)]
      else [c]

/-- A text between double quotes. -/
def quoted (text : String) : String :=
  "\"" ++ String.ofList (text.toList.flatMap escapeChar) ++ "\""

/-- A line break and the indentation of a level. -/
def newLine (level : Nat) : String :=
  "\n" ++ String.ofList (List.replicate (2 * level) ' ')

mutual

/-- A value at a level. -/
def Value.print (level : Nat) : Value → String
  | .null => "null"
  | .number value => toString value
  | .text value => quoted value
  | .array [] => "[]"
  | .array items => "[" ++ Value.printItems (level + 1) true items ++ newLine level ++ "]"
  | .object [] => "\x7b\x7d"
  | .object members =>
      "\x7b" ++ Value.printMembers (level + 1) true members ++ newLine level ++ "\x7d"

/-- Items, a comma before each but the first. -/
def Value.printItems (level : Nat) (first : Bool) : List Value → String
  | [] => ""
  | item :: rest =>
      (if first then "" else ",") ++ newLine level ++ Value.print level item ++
        Value.printItems level false rest

/-- Members, a comma before each but the first. -/
def Value.printMembers (level : Nat) (first : Bool) : List (String × Value) → String
  | [] => ""
  | (key, value) :: rest =>
      (if first then "" else ",") ++ newLine level ++ quoted key ++ ": " ++
        Value.print level value ++ Value.printMembers level false rest

end

end Heredoc.Json
