import Heredoc.Text.Utf8
import Heredoc.Yaml.Problem

/-!
# Reading a YAML stream

A cursor is what is left of the stream and where it starts. Line breaks are carriage return, line
feed, both together, next line, line separator and paragraph separator.
-/

namespace Heredoc.Yaml

/-! ## Characters -/

/-- Whether a character may stand in a stream at all. -/
def isAllowed (c : Char) : Bool :=
  let n := c.toNat
  n == 0x09 || n == 0x0A || n == 0x0D || (0x20 ≤ n && n ≤ 0x7E) || n == 0x85 ||
    (0xA0 ≤ n && n ≤ 0xD7FF) || (0xE000 ≤ n && n ≤ 0xFFFD) || 0x10000 ≤ n

/-- The byte offset of the first character that may not stand in a stream. -/
def firstControl? (offset : Nat) : List Char → Option Nat
  | [] => none
  | c :: rest => if isAllowed c then firstControl? (offset + c.utf8Size) rest else some offset

/-- Space or tab. -/
def isBlank (c : Char) : Bool := c == ' ' || c == '\t'

/-- A character that breaks a line. -/
def isBreak (c : Char) : Bool :=
  c == '\r' || c == '\n' || c == '\u0085' || c == '\u2028' || c == '\u2029'

/-- ASCII letters, digits, dash and underscore. -/
def isNameChar (c : Char) : Bool :=
  c.isAlphanum || c == '_' || c == '-'

/-- The value of a hexadecimal digit. -/
def hexDigit? (c : Char) : Option Nat :=
  if c.isDigit then some (c.toNat - '0'.toNat)
  else if 'a' ≤ c && c ≤ 'f' then some (c.toNat - 'a'.toNat + 10)
  else if 'A' ≤ c && c ≤ 'F' then some (c.toNat - 'A'.toNat + 10)
  else none

/-! ## Cursors -/

/-- What is left of a stream, and the place of its first character. -/
structure Cursor where
  rest : List Char
  mark : Mark
deriving Repr, Inhabited

namespace Cursor

/-- The start of a stream. -/
def start (text : List Char) : Cursor := ⟨text, ⟨0, 0, 0⟩⟩

/-- The character so many places ahead. -/
def ahead? (cursor : Cursor) (count : Nat) : Option Char := cursor.rest[count]?

/-- Whether this character comes next. -/
def sees (cursor : Cursor) (c : Char) : Bool := cursor.rest.head? == some c

/-- Whether the next character is of a kind. -/
def seesAny (cursor : Cursor) (p : Char → Bool) : Bool := cursor.rest.head?.any p

/-- Whether nothing is left. -/
def atEnd (cursor : Cursor) : Bool := cursor.rest.isEmpty

/-- Whether the character so many places ahead is blank, a line break or missing. -/
def gapAt (cursor : Cursor) (count : Nat) : Bool :=
  (cursor.ahead? count).all fun c => isBlank c || isBreak c

/-- Whether a line break or the end comes next. -/
def atLineEnd (cursor : Cursor) : Bool := cursor.rest.head?.all isBreak

/-- Steps over characters of one line. -/
def skip (cursor : Cursor) (count : Nat) : Cursor :=
  { rest := cursor.rest.drop count
    mark := { cursor.mark with
      index := cursor.mark.index + Text.byteLength (cursor.rest.take count)
      column := cursor.mark.column + count } }

/-- Steps over all characters of a kind that come next; gives them too. -/
def takeWhile (cursor : Cursor) (p : Char → Bool) : List Char × Cursor :=
  let taken := cursor.rest.takeWhile p
  (taken, cursor.skip taken.length)

/-- Steps over all characters of a kind that come next. -/
def skipWhile (cursor : Cursor) (p : Char → Bool) : Cursor :=
  (cursor.takeWhile p).2

/-- Steps over one line break; gives the break as it counts in text. -/
def takeBreak (cursor : Cursor) : List Char × Cursor :=
  let next (rest : List Char) (size : Nat) : Cursor :=
    ⟨rest, ⟨cursor.mark.index + size, cursor.mark.line + 1, 0⟩⟩
  match cursor.rest with
  | '\r' :: '\n' :: rest => (['\n'], next rest 2)
  | c :: rest =>
      if c == '\u2028' || c == '\u2029' then ([c], next rest c.utf8Size)
      else if isBreak c then (['\n'], next rest c.utf8Size)
      else ([], cursor)
  | [] => ([], cursor)

/-- Whether a document marker of three equal characters starts here. -/
def atIndicator (cursor : Cursor) (c : Char) : Bool :=
  cursor.mark.column == 0 && cursor.rest.take 3 == [c, c, c] && cursor.gapAt 3

/-- Whether a document start or end marker starts here. -/
def atDocumentIndicator (cursor : Cursor) : Bool :=
  cursor.atIndicator '-' || cursor.atIndicator '.'

theorem length_skip_le (cursor : Cursor) (count : Nat) :
    (cursor.skip count).rest.length ≤ cursor.rest.length := by
  simp [skip]

theorem length_skipWhile_le (cursor : Cursor) (p : Char → Bool) :
    (cursor.skipWhile p).rest.length ≤ cursor.rest.length := by
  simp [skipWhile, takeWhile, skip]

theorem length_takeBreak_le (cursor : Cursor) :
    cursor.takeBreak.2.rest.length ≤ cursor.rest.length := by
  unfold takeBreak
  split
  · rename_i rest heq
    simp only [heq, List.length_cons]
    omega
  · rename_i c rest _ heq
    split
    · simp only [heq, List.length_cons]
      omega
    · split
      · simp only [heq, List.length_cons]
        omega
      · exact Nat.le_refl _
  · exact Nat.le_refl _

theorem length_takeBreak_lt (cursor : Cursor) (h : cursor.seesAny isBreak = true) :
    cursor.takeBreak.2.rest.length < cursor.rest.length := by
  obtain ⟨rest, mark⟩ := cursor
  cases rest with
  | nil => simp [seesAny] at h
  | cons c rest =>
    simp only [seesAny, List.head?_cons, Option.any_some] at h
    unfold takeBreak
    split
    · rename_i more heq
      simp only [List.cons.injEq] at heq
      simp only [heq.2, List.length_cons]
      omega
    · rename_i heq
      simp only [List.cons.injEq] at heq
      obtain ⟨rfl, rfl⟩ := heq
      split
      · simp
      · simp
    · rename_i heq
      simp at heq

/-- Steps over the rest of the line; gives it too. -/
def takeLine (cursor : Cursor) : List Char × Cursor :=
  cursor.takeWhile (!isBreak ·)

/-- A line and its break are something, unless nothing is left. -/
theorem length_takeLine_lt (cursor : Cursor) (more : ¬cursor.atEnd = true) :
    cursor.takeLine.2.takeBreak.2.rest.length < cursor.rest.length := by
  obtain ⟨rest, mark⟩ := cursor
  cases rest with
  | nil => simp [atEnd] at more
  | cons c rest =>
    by_cases breaks : isBreak c = true
    · have stays : (Cursor.takeLine ⟨c :: rest, mark⟩).2 = ⟨c :: rest, mark⟩ := by
        simp [takeLine, takeWhile, skip, breaks, Text.byteLength]
      rw [stays]
      exact length_takeBreak_lt _ (by simp [seesAny, breaks])
    · have moves : (Cursor.takeLine ⟨c :: rest, mark⟩).2.rest.length ≤ rest.length := by
        simp [takeLine, takeWhile, skip, breaks]
      have := length_takeBreak_le (Cursor.takeLine ⟨c :: rest, mark⟩).2
      simp only [List.length_cons]
      omega

end Cursor

end Heredoc.Yaml
