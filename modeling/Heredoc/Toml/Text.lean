/-!
# Quoted text in TOML

The four kinds of quoted text. Each reader starts after the opening quotes and gives the content
and what follows the closing quotes, or nothing if the text is not well formed.
-/

namespace Heredoc.Toml

/-- Whether a character may stand for itself in quoted text or in a comment. -/
def isPlain (c : Char) : Bool :=
  c == '\t' || (0x20 ≤ c.toNat && c.toNat ≠ 0x7F)

/-- Space or tab. -/
def isSpace (c : Char) : Bool := c == ' ' || c == '\t'

/-- The value of a hexadecimal digit. -/
def hexDigit? (c : Char) : Option Nat :=
  if c.isDigit then some (c.toNat - '0'.toNat)
  else if 'a' ≤ c && c ≤ 'f' then some (c.toNat - 'a'.toNat + 10)
  else if 'A' ≤ c && c ≤ 'F' then some (c.toNat - 'A'.toNat + 10)
  else none

/-- The character with a code point of so many hexadecimal digits. -/
def codePoint? (length : Nat) (cs : List Char) : Option Char :=
  if (cs.take length).length < length then none
  else
    ((cs.take length).mapM hexDigit?).bind fun digits =>
      let point := digits.foldl (fun n d => n * 16 + d) 0
      if point < 0xD800 ∨ (0xDFFF < point ∧ point ≤ 0x10FFFF) then some (Char.ofNat point)
      else none

/-- The character of an escape, from after its backslash on, and the number of characters that it
takes. -/
def escape? : List Char → Option (Char × Nat)
  | 'b' :: _ => some ('\x08', 1)
  | 't' :: _ => some ('\t', 1)
  | 'n' :: _ => some ('\n', 1)
  | 'f' :: _ => some ('\x0c', 1)
  | 'r' :: _ => some ('\r', 1)
  | 'e' :: _ => some ('\x1b', 1)
  | '"' :: _ => some ('"', 1)
  | '\\' :: _ => some ('\\', 1)
  | 'x' :: rest => (codePoint? 2 rest).map fun c => (c, 3)
  | 'u' :: rest => (codePoint? 4 rest).map fun c => (c, 5)
  | 'U' :: rest => (codePoint? 8 rest).map fun c => (c, 9)
  | _ => none

/-- Reads text between double quotes; `content` is what was read, last character first. -/
def readBasic (content : List Char) : List Char → Option (String × List Char)
  | [] => none
  | '"' :: rest => some (String.ofList content.reverse, rest)
  | '\\' :: rest =>
      match escape? rest with
      | none => none
      | some (c, count) => readBasic (c :: content) (rest.drop count)
  | c :: rest => if isPlain c then readBasic (c :: content) rest else none
termination_by cs => cs.length
decreasing_by all_goals simp; try omega

/-- Reads text between single quotes. -/
def readLiteral (content : List Char) : List Char → Option (String × List Char)
  | [] => none
  | c :: rest =>
      if c = '\'' then some (String.ofList content.reverse, rest)
      else if isPlain c then readLiteral (c :: content) rest
      else none

/-- Removes one line break from the front. -/
def dropBreak : List Char → List Char
  | '\n' :: rest => rest
  | '\r' :: '\n' :: rest => rest
  | cs => cs

/-- Removes all blanks and line breaks from the front; a carriage return counts only before a line
feed. -/
def dropBlankLines : List Char → List Char
  | '\r' :: '\n' :: rest => dropBlankLines rest
  | c :: rest => if isSpace c || c == '\n' then dropBlankLines rest else c :: rest
  | [] => []

/-- What follows a backslash at the end of a line: all blanks and line breaks are left out. -/
def afterContinuation? (cs : List Char) : Option (List Char) :=
  match cs.dropWhile isSpace with
  | '\n' :: rest | '\r' :: '\n' :: rest => some (dropBlankLines rest)
  | _ => none

theorem length_dropBlankLines_le (cs : List Char) :
    (dropBlankLines cs).length ≤ cs.length := by
  fun_induction dropBlankLines cs <;> simp_all <;> omega

theorem length_afterContinuation?_le {cs rest : List Char}
    (h : afterContinuation? cs = some rest) : rest.length ≤ cs.length := by
  have start := (List.dropWhile_sublist isSpace (l := cs)).length_le
  unfold afterContinuation? at h
  split at h
  · rename_i more heq
    have := length_dropBlankLines_le more
    obtain rfl := Option.some.inj h
    simp only [heq, List.length_cons] at start
    omega
  · rename_i more heq
    have := length_dropBlankLines_le more
    obtain rfl := Option.some.inj h
    simp only [heq, List.length_cons] at start
    omega
  · simp at h

/-- Reads text of several lines between three quotes each. Up to two quotes may stand right before
the closing ones. Escapes count only between double quotes. -/
def readLines (quote : Char) (content : List Char) (cs : List Char) :
    Option (String × List Char) :=
  match _h : cs with
  | [] => none
  | c :: rest =>
      if c = quote then
        let run := 1 + (rest.takeWhile (· = quote)).length
        if run < 3 then readLines quote (c :: content) rest
        else
          let kept := min run 5 - 3
          some (String.ofList (List.replicate kept quote ++ content).reverse,
            cs.drop (kept + 3))
      else if quote = '"' ∧ c = '\\' then
        match _hc : afterContinuation? rest with
        | some more => readLines quote content more
        | none =>
            match escape? rest with
            | none => none
            | some (meant, count) => readLines quote (meant :: content) (rest.drop count)
      else if c = '\r' then
        if rest.head? = some '\n' then readLines quote (c :: content) rest else none
      else if c = '\n' ∨ isPlain c then readLines quote (c :: content) rest
      else none
termination_by cs.length
decreasing_by
  · simp
  · have := length_afterContinuation?_le _hc
    simp only [List.length_cons]
    omega
  · simp only [List.length_cons, List.length_drop]
    omega
  · simp
  · simp

/-- Reads a quoted text of any kind from its first quote on. -/
def readQuoted : List Char → Option (String × List Char)
  | '"' :: '"' :: '"' :: rest => readLines '"' [] (dropBreak rest)
  | '\'' :: '\'' :: '\'' :: rest => readLines '\'' [] (dropBreak rest)
  | '"' :: rest => readBasic [] rest
  | '\'' :: rest => readLiteral [] rest
  | _ => none

end Heredoc.Toml
