/-!
# Searching in text

Finding one text in another, and cutting at a character or at a byte.
-/

namespace Heredoc.Text

/-- What stands before the first occurrence of `needle`, if it occurs. -/
def before? (needle : List Char) : List Char → Option (List Char)
  | [] => if needle.isEmpty then some [] else none
  | c :: rest =>
      if needle.isPrefixOf (c :: rest) then some []
      else (before? needle rest).map (c :: ·)

/-- Whether `needle` occurs. -/
def contains (needle cs : List Char) : Bool :=
  (before? needle cs).isSome

/-- The text in front of the first `mark`, and what follows it if it occurs. -/
def cutAt (mark : Char) (cs : List Char) : List Char × Option (List Char) :=
  (cs.takeWhile (· ≠ mark),
    match cs.dropWhile (· ≠ mark) with
    | [] => none
    | _ :: rest => some rest)

variable {α : Type} [DecidableEq α]

/-- What follows the last `mark`, or everything. -/
def afterLast (mark : α) (items : List α) : List α :=
  (items.reverse.takeWhile (· ≠ mark)).reverse

/-- What stands in front of the last `mark`. -/
def beforeLast? (mark : α) (items : List α) : Option (List α) :=
  match items.reverse.dropWhile (· ≠ mark) with
  | [] => none
  | _ :: rest => some rest.reverse

end Heredoc.Text
