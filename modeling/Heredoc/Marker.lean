import Heredoc.Text.Blank

/-!
# Start markers and terminators

A heredoc starts at `<<` that is no part of `<<<`, then an optional `-`, blanks, an optional
quote and a tag that no word character follows. It ends at a line that is the tag apart from
white space.
-/

namespace Heredoc.Marker

/-- ASCII letters, digits and the underscore. -/
def isWordChar (c : Char) : Bool :=
  c.isAlphanum || c == '_'

/-- Whether the tag stands at the front as a whole word. -/
def fits (rest : List Char) (tag : String) : Bool :=
  tag.toList.isPrefixOf rest &&
    !((rest.drop tag.length).head?.any isWordChar)

/-- What follows `<<` with one dash, all blanks and one quote removed. -/
def afterIntroducer (rest : List Char) : List Char :=
  let undashed := match rest with
    | '-' :: more => more
    | _ => rest
  let unspaced := undashed.dropWhile fun c => c == ' ' || c == '\t'
  match unspaced with
  | '\'' :: more => more
  | '"' :: more => more
  | _ => unspaced

/-- The first listed tag that fits after `<<`. -/
def tagAfter (tags : List String) (rest : List Char) : Option String :=
  tags.find? (fits (afterIntroducer rest))

/-- The tag at the leftmost introducer where one fits; `previous` is the character before. -/
def findStart (tags : List String) (previous : Option Char) : List Char → Option String
  | '<' :: '<' :: rest =>
      let found :=
        if previous = some '<' ∨ rest.head? = some '<' then none else tagAfter tags rest
      match found with
      | some tag => some tag
      | none => findStart tags (some '<') ('<' :: rest)
  | c :: rest => findStart tags (some c) rest
  | [] => none

/-- The tag that a line opens a heredoc for. -/
def start? (tags : List String) (line : String) : Option String :=
  findStart tags none line.toList

/-- Whether a line ends the heredoc of a tag. -/
def isTerminator (line tag : String) : Bool :=
  Text.trim line.toList = tag.toList

end Heredoc.Marker
