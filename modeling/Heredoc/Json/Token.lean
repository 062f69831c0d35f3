import Heredoc.Json.Number

/-!
# JSON tokens

A text is cut into tokens with the byte offsets where each starts and stops. The list ends with
the end of the text, or with the first piece that is no token.
-/

namespace Heredoc.Json

/-- What a token is. -/
inductive Kind where
  | openArray
  | closeArray
  | openObject
  | closeObject
  | comma
  | colon
  | null
  | bool (value : Bool)
  | number (number : Number)
  | text (value : String)
  /-- A quoted text that has no content. Where texts are not looked at it breaks off only with the
  second problem. -/
  | brokenText (problem : Problem) (skimmed : Option Problem)
  /-- A number or word that breaks off, with the second problem where it is not looked at. -/
  | broken (problem skimmed : Problem)
  /-- A character that starts no token. -/
  | stray
  /-- The end of the whole text. -/
  | finished
deriving DecidableEq, Repr

/-- A token with the byte offsets of its ends. -/
structure Token where
  kind : Kind
  start : Nat
  stop : Nat
deriving DecidableEq, Repr

namespace Token

/-- The offset just past the first byte of the token, or the end of the text. -/
def peekIndex (token : Token) : Nat :=
  min token.stop (token.start + 1)

/-- The problem that this token stands where it should not. -/
def unexpected (token : Token) (cause : Cause) : Problem :=
  ⟨cause, token.peekIndex⟩

/-- Whether no token can follow. -/
def isLast (token : Token) : Bool :=
  match token.kind with
  | .brokenText _ skimmed => skimmed.isSome
  | .broken .. | .stray | .finished => true
  | _ => false

end Token

/-- The white space of JSON. -/
def isSpace (c : Char) : Bool :=
  c == ' ' || c == '\n' || c == '\t' || c == '\r'

/-! ## Quoted texts -/

/-- The value of a hexadecimal digit. -/
def hexDigit? (c : Char) : Option Nat :=
  if c.isDigit then some (c.toNat - '0'.toNat)
  else if 'a' ≤ c && c ≤ 'f' then some (c.toNat - 'a'.toNat + 10)
  else if 'A' ≤ c && c ≤ 'F' then some (c.toNat - 'A'.toNat + 10)
  else none

/-- The number written by four hexadecimal digits at the front. -/
def hexUnit? : List Char → Option Nat
  | a :: b :: c :: d :: _ => do
      let a ← hexDigit? a
      let b ← hexDigit? b
      let c ← hexDigit? c
      let d ← hexDigit? d
      return ((a * 16 + b) * 16 + c) * 16 + d
  | _ => none

/-- The number of an escape `\u`, or how reading it fails; `index` is the offset of the digits. -/
def readUnit (index : Nat) (rest : List Char) : Except Problem Nat :=
  if Text.byteLength (rest.take 4) < 4 then
    .error ⟨.endInText, index + Text.byteLength (rest.take 4)⟩
  else match hexUnit? rest with
    | some unit => .ok unit
    | none => .error ⟨.invalidEscape, index + 4⟩

/-- The character of a simple escape. -/
def simpleEscape? : Char → Option Char
  | '"' => some '"'
  | '\\' => some '\\'
  | '/' => some '/'
  | 'b' => some '\x08'
  | 'f' => some '\x0c'
  | 'n' => some '\n'
  | 'r' => some '\r'
  | 't' => some '\t'
  | _ => none

/-- Whether a 16-bit unit is the first of a pair. -/
def isHighSurrogate (unit : Nat) : Bool := 0xD800 ≤ unit && unit ≤ 0xDBFF

/-- Whether a 16-bit unit is the second of a pair. -/
def isLowSurrogate (unit : Nat) : Bool := 0xDC00 ≤ unit && unit ≤ 0xDFFF

/-- The character that a `\u` escape stands for, and the number of characters after `\u` that it
takes: four digits, or two units of a surrogate pair. `index` is the offset of the digits. -/
def readEscapedChar (index : Nat) (rest : List Char) : Except Problem (Char × Nat) := do
  let first ← readUnit index rest
  if isLowSurrogate first then
    throw ⟨.loneSurrogate, index + 4⟩
  else if isHighSurrogate first then
    match rest.drop 4 with
    | [] => throw ⟨.endInText, index + 4⟩
    | ['\\'] => throw ⟨.endInText, index + 5⟩
    | '\\' :: 'u' :: more =>
        let second ← readUnit (index + 6) more
        if isLowSurrogate second then
          return (Char.ofNat (0x10000 + (first - 0xD800) * 0x400 + (second - 0xDC00)), 10)
        else throw ⟨.loneSurrogate, index + 10⟩
    | '\\' :: _ => throw ⟨.brokenSurrogatePair, index + 6⟩
    | _ => throw ⟨.brokenSurrogatePair, index + 5⟩
  else return (Char.ofNat first, 4)

/-- Reads a quoted text after its opening quote at offset `index`. Gives its content, the number
of characters read and the offset after the closing quote. -/
def readText (index : Nat) (content : List Char) (read : Nat) (cs : List Char) :
    Except Problem (String × Nat × Nat) :=
  match cs with
  | [] => .error ⟨.endInText, index⟩
  | '"' :: _ => .ok (String.ofList content.reverse, read + 1, index + 1)
  | ['\\'] => .error ⟨.endInText, index + 1⟩
  | '\\' :: 'u' :: rest =>
      match readEscapedChar (index + 2) rest with
      | .error problem => .error problem
      | .ok (c, count) =>
          readText (index + 2 + count) (c :: content) (read + 2 + count) (rest.drop count)
  | '\\' :: c :: rest =>
      match simpleEscape? c with
      | some meant => readText (index + 2) (meant :: content) (read + 2) rest
      | none => .error ⟨.invalidEscape, index + 2⟩
  | c :: rest =>
      if c.toNat < 0x20 then .error ⟨.controlCharacter, index + 1⟩
      else readText (index + c.utf8Size) (c :: content) (read + 1) rest
termination_by cs.length
decreasing_by all_goals simp; try omega

/-- Steps over a quoted text that is not looked at, from offset `index` after its opening quote on.
Its escapes need not stand for characters. Gives the number of characters read and the offset after
the closing quote. -/
def skimText (index : Nat) (read : Nat) (cs : List Char) : Except Problem (Nat × Nat) :=
  match cs with
  | [] => .error ⟨.endInText, index⟩
  | '"' :: _ => .ok (read + 1, index + 1)
  | ['\\'] => .error ⟨.endInText, index + 1⟩
  | '\\' :: 'u' :: rest =>
      match readUnit (index + 2) rest with
      | .error problem => .error problem
      | .ok _ => skimText (index + 6) (read + 6) (rest.drop 4)
  | '\\' :: c :: rest =>
      if (simpleEscape? c).isSome then skimText (index + 2) (read + 2) rest
      else .error ⟨.invalidEscape, index + 2⟩
  | c :: rest =>
      if c.toNat < 0x20 then .error ⟨.controlCharacter, index⟩
      else skimText (index + c.utf8Size) (read + 1) rest
termination_by cs.length
decreasing_by all_goals simp; try omega

/-! ## Numbers and words -/

/-- Reads the exponent part after its letter at offset `index`. -/
def readExponentPart (index : Nat) (cs : List Char) : Except Problem (ExponentPart × Nat) :=
  let (negative, signs, rest) := match cs with
    | '+' :: rest => (false, 1, rest)
    | '-' :: rest => (true, 1, rest)
    | _ => (false, 0, cs)
  match rest with
  | [] => .error ⟨.endInValue, index + signs⟩
  | c :: _ =>
      if c.isDigit then
        let digits := rest.takeWhile Char.isDigit
        .ok (⟨negative, digits, index + signs⟩, signs + digits.length)
      else .error ⟨.invalidNumber, index + signs + 1⟩

/-- Reads a number from its first digit on, at offset `index`; gives it and its length. -/
def readUnsigned (negative : Bool) (index : Nat) (cs : List Char) :
    Except Problem (Number × Nat) := do
  let whole := match cs with
    | '0' :: _ => ['0']
    | _ => cs.takeWhile Char.isDigit
  let afterWhole := cs.drop whole.length
  let index := index + whole.length
  if whole = ['0'] ∧ afterWhole.head?.any Char.isDigit then
    throw ⟨.invalidNumber, index + 1⟩
  let fraction ← match afterWhole with
    | '.' :: rest =>
        let digits := rest.takeWhile Char.isDigit
        if digits.isEmpty then
          match rest with
          | [] => throw ⟨.endInValue, index + 1⟩
          | _ => throw ⟨.invalidNumber, index + 2⟩
        else pure (some digits)
    | _ => pure none
  let fractionLength := match fraction with
    | some digits => digits.length + 1
    | none => 0
  let afterFraction := afterWhole.drop fractionLength
  let index := index + fractionLength
  let (exponent, exponentLength) ← match afterFraction with
    | 'e' :: rest | 'E' :: rest => do
        let (exponent, length) ← readExponentPart (index + 1) rest
        pure (some exponent, length + 1)
    | _ => pure (none, 0)
  return (⟨negative, whole, fraction, exponent, index + exponentLength⟩,
    whole.length + fractionLength + exponentLength)

/-- Reads a number with its sign; gives it and its length. -/
def readNumber (index : Nat) (cs : List Char) : Except Problem (Number × Nat) :=
  match cs with
  | ['-'] => .error ⟨.endInValue, index + 1⟩
  | '-' :: c :: rest =>
      if c.isDigit then
        (readUnsigned true (index + 1) (c :: rest)).map fun (number, length) =>
          (number, length + 1)
      else .error ⟨.invalidNumber, index + 2⟩
  | _ => readUnsigned false index cs

/-- Checks that the letters follow one by one. -/
def readLetters (index : Nat) : List Char → List Char → Except Problem Unit
  | [], _ => .ok ()
  | _ :: _, [] => .error ⟨.endInValue, index⟩
  | letter :: letters, c :: rest =>
      if c = letter then readLetters (index + 1) letters rest
      else .error ⟨.expectedWord, index + 1⟩

/-! ## The token list -/

/-- A token of one character. -/
def mark (kind : Kind) (index : Nat) : Token × Nat :=
  (⟨kind, index, index + 1⟩, 0)

/-- A word that stands for a value: its token, and the characters after the first. -/
def word (kind : Kind) (letters : String) (index : Nat) (rest : List Char) : Token × Nat :=
  match readLetters (index + 1) letters.toList rest with
  | .ok _ => (⟨kind, index, index + 1 + letters.length⟩, letters.length)
  | .error problem => (⟨.broken problem problem, index, problem.index⟩, 0)

/-- A quoted text: its token, and the characters after the opening quote. -/
def quotedText (index : Nat) (rest : List Char) : Token × Nat :=
  match readText (index + 1) [] 0 rest with
  | .ok (content, read, stop) => (⟨.text content, index, stop⟩, read)
  | .error problem =>
      match skimText (index + 1) 0 rest with
      | .ok (read, stop) => (⟨.brokenText problem none, index, stop⟩, read)
      | .error skimmed => (⟨.brokenText problem (some skimmed), index, index + 1⟩, 0)

/-- The problem of a number that is not looked at: its end counts as any other character. -/
def skimmedNumber (problem : Problem) : Problem :=
  if problem.cause = .endInValue then { problem with cause := .invalidNumber } else problem

/-- The token that starts with `c` at offset `index`, and how many characters of `rest` belong to
it. -/
def readToken (index : Nat) (c : Char) (rest : List Char) : Token × Nat :=
  match c with
  | '[' => mark .openArray index
  | ']' => mark .closeArray index
  | '\x7b' => mark .openObject index
  | '\x7d' => mark .closeObject index
  | ',' => mark .comma index
  | ':' => mark .colon index
  | 'n' => word .null "ull" index rest
  | 't' => word (.bool true) "rue" index rest
  | 'f' => word (.bool false) "alse" index rest
  | '"' => quotedText index rest
  | _ =>
      if c = '-' ∨ c.isDigit then
        match readNumber index (c :: rest) with
        | .ok (number, length) => (⟨.number number, index, index + length⟩, length - 1)
        | .error problem => (⟨.broken problem (skimmedNumber problem), index, index + 1⟩, 0)
      else mark .stray index

/-- The tokens of a text that starts at offset `index`. -/
def tokensFrom (index : Nat) : List Char → List Token
  | [] => [⟨.finished, index, index⟩]
  | c :: rest =>
      if isSpace c then tokensFrom (index + 1) rest
      else
        let (token, count) := readToken index c rest
        if token.isLast then [token]
        else token :: tokensFrom token.stop (rest.drop count)
termination_by cs => cs.length
decreasing_by all_goals simp; try omega

/-- The tokens of a text. -/
def tokens (text : List Char) : List Token :=
  tokensFrom 0 text

end Heredoc.Json
