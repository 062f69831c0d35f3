import Heredoc.Toml.Scalar
import Heredoc.Toml.Tree

/-!
# TOML documents

Reading a whole TOML text: lines with a key and its value, and headers that say in which table the
keys after them stand. A text that is not well formed has no reading.
-/

namespace Heredoc.Toml

/-- Skips blanks, line breaks and comments, from within a comment or from outside. Nothing if a
character may not stand in a comment or a carriage return stands alone. -/
def skipBreaks (inComment : Bool) : List Char → Option (List Char)
  | [] => some []
  | '\n' :: rest => skipBreaks false rest
  | '\r' :: rest => if rest.head? = some '\n' then skipBreaks false rest else none
  | c :: rest =>
      if inComment then (if isPlain c then skipBreaks true rest else none)
      else if isSpace c then skipBreaks false rest
      else if c = '#' then skipBreaks true rest
      else some (c :: rest)

/-! ## Keys -/

/-- Whether a character may stand in a key without quotes. -/
def isBare (c : Char) : Bool :=
  c.isAlphanum || c == '-' || c == '_'

/-- Reads one name of a key. -/
def readName : List Char → Option (String × List Char)
  | '"' :: rest => readBasic [] rest
  | '\'' :: rest => readLiteral [] rest
  | cs =>
      if (cs.takeWhile isBare).isEmpty then none
      else some (String.ofList (cs.takeWhile isBare), cs.dropWhile isBare)

/-- Reads a key of names with dots between them, and the blanks after it. There are at most `fuel`
names. -/
def readKeyWith : Nat → List Char → Option (List String × List Char)
  | 0, _ => none
  | fuel + 1, cs => do
      let (name, rest) ← readName (cs.dropWhile isSpace)
      match rest.dropWhile isSpace with
      | '.' :: more =>
          let (path, rest) ← readKeyWith fuel more
          some (name :: path, rest)
      | rest => some ([name], rest)

/-- Reads a key. Every name but the last has a dot after it, so the characters are enough fuel. -/
def readKey (cs : List Char) : Option (List String × List Char) :=
  readKeyWith (cs.length + 1) cs

/-- Reads a key, the equals sign after it and the blanks after that. -/
def readDefined (cs : List Char) : Option (List String × List Char) := do
  let (path, rest) ← readKey cs
  let rest ← expect '=' rest
  some (path, rest.dropWhile isSpace)

/-! ## Values -/

/-- How deep arrays and inline tables may be nested. -/
def deepest : Nat := 80

mutual

/-- Reads a value that may have so many levels below it. -/
def readValueWith (levels : Nat) : Nat → List Char → Option (Value × List Char)
  | 0, _ => none
  | fuel + 1, cs =>
      match cs with
      | '[' :: rest => if levels = 0 then none else readItems (levels - 1) fuel [] rest
      | '\x7b' :: rest => if levels = 0 then none else readEntries (levels - 1) fuel [] rest
      | '"' :: _ => (readQuoted cs).map fun (value, rest) => (.text value, rest)
      | '\'' :: _ => (readQuoted cs).map fun (value, rest) => (.text value, rest)
      | _ =>
          let (word, rest) := splitWord cs
          (readWord? word).map fun value => (value, rest)

/-- Reads the rest of an array; `items` are those before, the last one first. -/
def readItems (levels : Nat) : Nat → List Value → List Char → Option (Value × List Char)
  | 0, _, _ => none
  | fuel + 1, items, cs => do
      match ← skipBreaks false cs with
      | ']' :: rest => some (.array items.reverse, rest)
      | front =>
          let (value, rest) ← readValueWith levels fuel front
          match ← skipBreaks false rest with
          | ',' :: rest => readItems levels fuel (value :: items) rest
          | ']' :: rest => some (.array (value :: items).reverse, rest)
          | _ => none

/-- Reads the rest of an inline table after these entries. -/
def readEntries (levels : Nat) : Nat → Entries → List Char → Option (Value × List Char)
  | 0, _, _ => none
  | fuel + 1, entries, cs => do
      match ← skipBreaks false cs with
      | '\x7d' :: rest => some (.table (entryValues entries), rest)
      | front =>
          let (path, rest) ← readDefined front
          let (value, rest) ← readValueWith levels fuel rest
          let entries ← define path value entries
          match ← skipBreaks false rest with
          | ',' :: rest => readEntries levels fuel entries rest
          | '\x7d' :: rest => some (.table (entryValues entries), rest)
          | _ => none

end

/-- Reads a value. Each array or table and each of their elements has a character of its own, so
twice the characters are enough fuel. -/
def readValue (cs : List Char) : Option (Value × List Char) :=
  readValueWith deepest (2 * cs.length + 1) cs

/-! ## Lines -/

/-- Whether nothing but blanks and a comment is left on the line. -/
def isLineEnd (cs : List Char) : Bool :=
  match cs.dropWhile isSpace with
  | [] => true
  | c :: _ => c == '\n' || c == '\r' || c == '#'

/-- Reads what stands on one line, in the table of a header: the new header and entries, and the
text after the line's content. -/
def readStatement (header : List String) (entries : Entries) (cs : List Char) :
    Option (List String × Entries × List Char) :=
  match cs with
  | '[' :: '[' :: rest => do
      let (path, rest) ← readKey rest
      let rest ← expect ']' (← expect ']' rest)
      some (path, ← openItem path entries, rest)
  | '[' :: rest => do
      let (path, rest) ← readKey rest
      some (path, ← openTable path entries, ← expect ']' rest)
  | _ => do
      let (path, rest) ← readDefined cs
      let (value, rest) ← readValue rest
      some (header, ← defineUnder header path value entries, rest)

/-- Reads line after line. -/
def readStatements : Nat → List String → Entries → List Char → Option Entries
  | 0, _, _, _ => none
  | fuel + 1, header, entries, cs => do
      match ← skipBreaks false cs with
      | [] => some entries
      | front =>
          let (header, entries, rest) ← readStatement header entries front
          if isLineEnd rest then readStatements fuel header entries rest else none

/-- The entries of a TOML text, if it is well formed. A byte order mark in front does not
count. -/
def parse? (text : String) : Option (List (String × Value)) :=
  let cs := match text.toList with
    | '\uFEFF' :: rest => rest
    | cs => cs
  (readStatements (cs.length + 1) [] [] cs).map entryValues

end Heredoc.Toml
