/-!
# White space

`isBlank` is the `White_Space` property: tab to carriage return, space, next line, no-break
space and the wider spaces. `trim` removes it from both ends. `isAsciiBlank` is the narrower
class of space, tab, line feed, form feed and carriage return.
-/

namespace Heredoc.Text

/-- The code points that have the property `White_Space`, as closed intervals. -/
def blankIntervals : List (Nat × Nat) :=
  [(0x09, 0x0D), (0x20, 0x20), (0x85, 0x85), (0xA0, 0xA0), (0x1680, 0x1680),
   (0x2000, 0x200A), (0x2028, 0x2029), (0x202F, 0x202F), (0x205F, 0x205F), (0x3000, 0x3000)]

/-- Whether a character is white space. -/
def isBlank (c : Char) : Bool :=
  blankIntervals.any fun interval => interval.1 ≤ c.toNat && c.toNat ≤ interval.2

/-- Space, tab, line feed, form feed or carriage return. -/
def isAsciiBlank (c : Char) : Bool :=
  c == ' ' || c == '\t' || c == '\n' || c == '\x0c' || c == '\r'

/-- Removes white space at the end. -/
def trimEnd (cs : List Char) : List Char :=
  (cs.reverse.dropWhile isBlank).reverse

/-- Removes white space at both ends. -/
def trim (cs : List Char) : List Char :=
  trimEnd (cs.dropWhile isBlank)

/-- The maximal runs of characters that are not white space. -/
def words (cs : List Char) : List (List Char) :=
  let runs := cs.foldr
    (fun c (current, done) =>
      if isBlank c then ([], if current.isEmpty then done else current :: done)
      else (c :: current, done))
    (([] : List Char), ([] : List (List Char)))
  if runs.1.isEmpty then runs.2 else runs.1 :: runs.2

end Heredoc.Text
