import Heredoc.Assoc

/-!
# Tags

A tag table sends the tag of a heredoc to the key of its validator. Tags are listed longest
first, so that the longer of two tags that could start at one place is tried first.
-/

namespace Heredoc

/-- Tags and the validator keys that they stand for. -/
structure TagTable where
  entries : Assoc String String
deriving Repr, Inhabited

namespace TagTable

/-- The table without tags. -/
def empty : TagTable := ⟨[]⟩

/-- Sends a tag to a key in place of its former key. -/
def insert (table : TagTable) (tag key : String) : TagTable :=
  ⟨table.entries.put tag key⟩

/-- Sends each listed tag to its key, in order. -/
def insertAll (table : TagTable) (pairs : List (String × String)) : TagTable :=
  pairs.foldl (fun table pair => table.insert pair.1 pair.2) table

/-- The tags known from the start. -/
def standard : TagTable :=
  empty.insertAll
    [("JSON", "json"), ("YAML", "yaml"), ("YML", "yaml"), ("XML", "xml"), ("PLIST", "xml"),
     ("PYTHON", "python"), ("PY", "python")]

/-- The key of a tag. -/
def lookup (table : TagTable) (tag : String) : Option String :=
  table.entries.get? tag

/-- Whether the tag is known. -/
def contains (table : TagTable) (tag : String) : Bool :=
  table.entries.contains tag

/-- The number of tags. -/
def size (table : TagTable) : Nat :=
  table.entries.length

/-- Whether `tag` is listed before `other`: it takes more bytes, or as many and comes first in
the order of code points. -/
def listedBefore (tag other : String) : Bool :=
  if tag.utf8ByteSize = other.utf8ByteSize then decide (tag ≤ other)
  else decide (other.utf8ByteSize < tag.utf8ByteSize)

/-- All tags, longest first. -/
def tags (table : TagTable) : List String :=
  table.entries.keys.mergeSort listedBefore

@[simp] theorem lookup_insert (table : TagTable) (tag key other : String) :
    (table.insert tag key).lookup other =
      if tag = other then some key else table.lookup other :=
  Assoc.get?_put ..

end TagTable

end Heredoc
