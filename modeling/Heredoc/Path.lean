import Heredoc.Text.Search

/-!
# Paths

To the system a path is a string of bytes, and so is the name of a file; neither need be text. A
path that is given to the program is text. Two paths are equal as places when their components are.
Repeated separators and `.` do not count, except a `.` at the front.
-/

namespace Heredoc

/-- The bytes of a text. -/
def Text.encode (text : String) : List UInt8 :=
  text.toUTF8.data.toList

/-- The name of a file: bytes, which need not be text. -/
structure FileName where
  bytes : List UInt8
deriving DecidableEq, Repr, Inhabited

namespace FileName

/-- A name that is text. -/
def ofText (text : String) : FileName := ⟨Text.encode text⟩

instance : Coe String FileName := ⟨ofText⟩

/-- The name as text, if it is. -/
def text? (name : FileName) : Option String :=
  String.fromUTF8? ⟨name.bytes.toArray⟩

end FileName

/-- A step of a path. -/
inductive Component where
  | root
  | current
  | parent
  | name (name : FileName)
deriving DecidableEq, Repr

namespace Component

/-- The order of the kinds of components. -/
def rank : Component → Nat
  | .root => 0
  | .current => 1
  | .parent => 2
  | .name _ => 3

/-- Whether a component is before another: by kind, names by their bytes. -/
def before (component other : Component) : Bool :=
  match component, other with
  | .name a, .name b => a.bytes < b.bytes
  | _, _ => component.rank < other.rank

end Component

/-- A path as the system has it: bytes, which need not be text. -/
structure SystemPath where
  bytes : List UInt8
deriving DecidableEq, Repr, Inhabited

/-- A path as given to the program, which is text. A path that is no text is a `SystemPath` only. -/
structure Path where
  text : String
deriving DecidableEq, Repr, Inhabited

/-- A path of the system that is text. -/
def SystemPath.ofText (text : String) : SystemPath := ⟨Text.encode text⟩

/-- A path of text as the system has it. -/
def Path.system (path : Path) : SystemPath := .ofText path.text

namespace SystemPath

instance : Coe Path SystemPath := ⟨Path.system⟩

/-- The path as text, if it is. -/
def text? (path : SystemPath) : Option Path :=
  (String.fromUTF8? ⟨path.bytes.toArray⟩).map Path.mk

/-- The byte between two names. -/
def slash : UInt8 := 47

/-- The byte of `.`. -/
def dot : UInt8 := 46

/-- What stands between slashes. -/
def pieces (bytes : List UInt8) : List (List UInt8) :=
  bytes.foldr
    (fun b pieces => if b = slash then [] :: pieces else
      match pieces with
      | [] => [[b]]
      | piece :: rest => (b :: piece) :: rest)
    [[]]

/-- The component that a piece stands for, if it counts. -/
def component? (piece : List UInt8) : Option Component :=
  if piece = [] ∨ piece = [dot] then none
  else if piece = [dot, dot] then some .parent
  else some (.name ⟨piece⟩)

/-- The components of a path. -/
def components (path : SystemPath) : List Component :=
  let all := pieces path.bytes
  let front :=
    if path.bytes.head? = some slash then [Component.root]
    else if all.head? = some [dot] then [.current]
    else []
  front ++ all.filterMap component?

/-- The last component if it is a name. -/
def fileName? (path : SystemPath) : Option FileName :=
  match path.components.getLast? with
  | some (.name name) => some name
  | _ => none

/-- What follows the last dot of the file name, unless that is also its first byte. -/
def extension? (path : SystemPath) : Option FileName :=
  path.fileName?.bind fun name =>
    match Text.beforeLast? dot name.bytes with
    | none | some [] => none
    | some _ => some ⟨Text.afterLast dot name.bytes⟩

/-- The path of a name in a directory. -/
def join (path : SystemPath) (name : FileName) : SystemPath :=
  if path.bytes = [] ∨ path.bytes.getLast? = some slash then ⟨path.bytes ++ name.bytes⟩
  else ⟨path.bytes ++ slash :: name.bytes⟩

/-- Whether components come no later than others, compared one by one. -/
def listedBefore : List Component → List Component → Bool
  | [], _ => true
  | _ :: _, [] => false
  | a :: as, b :: bs => a.before b || (!b.before a && listedBefore as bs)

/-- Paths in order, component by component. -/
def sort (paths : List SystemPath) : List SystemPath :=
  paths.mergeSort fun path other => listedBefore path.components other.components

/-- Whether the path can only be a directory: it ends in a slash, or in a slash and a dot. -/
def mustBeDirectory (path : SystemPath) : Bool :=
  [slash].isSuffixOf path.bytes || [slash, dot].isSuffixOf path.bytes

end SystemPath

namespace Path

/-- The components of a path of text. -/
def components (path : Path) : List Component := path.system.components

/-- The last component if it is a name. -/
def fileName? (path : Path) : Option String :=
  path.system.fileName?.bind FileName.text?

end Path

end Heredoc
