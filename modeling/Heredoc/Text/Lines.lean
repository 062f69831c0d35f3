/-!
# Lines

Two ways to cut text at line feeds. A document keeps a final empty line and loses one carriage
return at the end of every line; the lines of a stream drop a final empty line and lose a
carriage return only where a line feed followed it.
-/

namespace Heredoc.Text

/-- The pieces between line feeds: one more piece than there are line feeds. -/
def splitLines : List Char → List (List Char)
  | [] => [[]]
  | c :: rest =>
      if c = '\n' then [] :: splitLines rest
      else match splitLines rest with
        | [] => [[c]]
        | line :: more => (c :: line) :: more

/-- Removes one carriage return from the end. -/
def dropReturn : List Char → List Char
  | [] => []
  | ['\r'] => []
  | c :: rest => c :: dropReturn rest

/-- The lines of a document: cut at every line feed, one final carriage return dropped each. -/
def documentLines (text : String) : List String :=
  (splitLines text.toList).map fun line => String.ofList (dropReturn line)

/-- The lines of a stream: an empty piece after the last line feed is no line, and only a
carriage return right before a line feed is dropped. -/
def streamLines (cs : List Char) : List (List Char) :=
  let pieces := splitLines cs
  let ended := pieces.dropLast.map dropReturn
  match pieces.getLast? with
  | some [] => ended
  | some last => ended ++ [last]
  | none => ended

/-- Lines joined by line feeds. -/
def joinLines (lines : List String) : String :=
  "\n".intercalate lines

theorem splitLines_ne_nil (cs : List Char) : splitLines cs ≠ [] := by
  induction cs with
  | nil => simp [splitLines]
  | cons c rest ih =>
    unfold splitLines
    split
    · simp
    · cases h : splitLines rest with
      | nil => simp
      | cons line more => simp

end Heredoc.Text
