import Heredoc.Text.Utf8

/-!
# Tags of YAML nodes

A tag is written as bytes, some of them escaped, so that it need not be well-formed text. What
counts is its kind: a tag of the document's own, a tag of a core type, or any other.
-/

namespace Heredoc.Yaml

/-- Bytes of a tag. -/
abbrev Octets := List UInt8

/-- The bytes of ASCII characters. -/
def octetsOf (cs : List Char) : Octets := cs.map fun c => c.toNat.toUInt8

/-- The bytes up to the first zero, which ends a tag and the front of a handle. -/
def beforeZero (octets : Octets) : Octets := octets.takeWhile (· ≠ 0)

/-- What the tag of a node means. -/
inductive NodeTag where
  /-- A tag of the document's own, without its exclamation mark unless it is nothing else. -/
  | own (name : String)
  /-- A tag of the document's own that is no text. -/
  | unreadable
  | bool
  | int
  | float
  | null
  | other
deriving DecidableEq, Repr

namespace NodeTag

/-- What the tags of the core types begin with. -/
def coreFront : String := "tag:yaml.org,2002:"

/-- The tag of the document's own with these bytes after its exclamation mark. -/
def ofOwn (octets : Octets) : NodeTag :=
  if octets.isEmpty then .own "!"
  else match Text.decode? octets with
    | some name => .own name
    | none => .unreadable

/-- The tag with this full text. -/
def ofText (text : String) : NodeTag :=
  if text = coreFront ++ "bool" then .bool
  else if text = coreFront ++ "int" then .int
  else if text = coreFront ++ "float" then .float
  else if text = coreFront ++ "null" then .null
  else .other

/-- The tag with these bytes. -/
def ofOctets (octets : Octets) : NodeTag :=
  if octets.head? == some 0x21 then ofOwn octets.tail
  else ((Text.decode? octets).map ofText).getD .other

end NodeTag

end Heredoc.Yaml
