import Heredoc.Assoc
import Heredoc.Path
import Heredoc.Text.Utf8

/-!
# File trees

A directory tree without links, how a path is followed in it from its top, and how a file is
read as text. The names in a tree are any bytes. What reads files asks `Files`, which need not be a
single tree.
-/

namespace Heredoc

/-- A file with its bytes, or a directory with its entries, whose names need not be text. -/
inductive FileTree where
  | file (bytes : List UInt8)
  | directory (entries : List (FileName × FileTree))
deriving Repr

/-- Why a path cannot be followed, or a file not be read as text. -/
inductive ReadError where
  | notFound
  | notDirectory
  | isDirectory
  | nameTooLong
  | nulByte
  | notText
  /-- Any other reason that the system gives. -/
  | other (message : String)
deriving DecidableEq, Repr

/-- The wording of a read error. -/
def ReadError.message : ReadError → String
  | .notFound => "No such file or directory (os error 2)"
  | .notDirectory => "Not a directory (os error 20)"
  | .isDirectory => "Is a directory (os error 21)"
  | .nameTooLong => "File name too long (os error 36)"
  | .nulByte => "file name contained an unexpected NUL byte"
  | .notText => "stream did not contain valid UTF-8"
  | .other message => message

namespace FileTree

/-- The tree without files. -/
def empty : FileTree := .directory []

/-- The entries of a directory; a file has none. -/
def entries : FileTree → Assoc FileName FileTree
  | .file _ => []
  | .directory entries => entries

/-- Whether this is a directory. -/
def isDirectory : FileTree → Bool
  | .file _ => false
  | .directory _ => true

/-- What is at the end of a way down. -/
def lookup : FileTree → List FileName → Option FileTree
  | tree, [] => some tree
  | tree, name :: rest => (tree.entries.get? name).bind fun child => child.lookup rest
termination_by _ names => names

/-- Puts something at the end of a way down; missing directories are made. -/
def insert (new : FileTree) : List FileName → FileTree → FileTree
  | [], _ => new
  | name :: rest, tree =>
      let child := (tree.entries.get? name).getD empty
      .directory (tree.entries.put name (insert new rest child))

/-- Takes away what is at the end of a way down. -/
def remove : List FileName → FileTree → FileTree
  | [], tree => tree
  | [name], tree => .directory (tree.entries.erase name)
  | name :: rest, tree =>
      match tree.entries.get? name with
      | some child => .directory (tree.entries.put name (remove rest child))
      | none => tree

/-- The way down that a path within the tree spells. -/
def wayDown (path : SystemPath) : List FileName :=
  path.components.foldl
    (fun way component => match component with
      | .name name => way ++ [name]
      | .parent => way.dropLast
      | .root | .current => way)
    []

/-- Writes a file. -/
def write (tree : FileTree) (path : SystemPath) (bytes : List UInt8) : FileTree :=
  insert (.file bytes) (wayDown path) tree

/-- Makes a directory unless it is there. -/
def makeDirectory (tree : FileTree) (path : SystemPath) : FileTree :=
  match tree.lookup (wayDown path) with
  | some (.directory _) => tree
  | _ => insert empty (wayDown path) tree

/-- Removes a file or a directory. -/
def delete (tree : FileTree) (path : SystemPath) : FileTree :=
  remove (wayDown path) tree

/-! ## Following paths -/

/-- The longest name of a file, in bytes. -/
def longestName : Nat := 255

/-- The longest path, in bytes. -/
def longestPath : Nat := 4095

/-- Takes one step of a path from the place reached so far. -/
def follow (tree : FileTree) (way : List FileName) (component : Component) :
    Except ReadError (List FileName) :=
  match tree.lookup way with
  | none => .error .notFound
  | some (.file _) => .error .notDirectory
  | some (.directory _) =>
      match component with
      | .current => .ok way
      | .parent => if way.isEmpty then .error .notFound else .ok way.dropLast
      | .root => .error .notFound
      | .name name =>
          if name.bytes.length > longestName then .error .nameTooLong else .ok (way ++ [name])

/-- What a path leads to. -/
def resolve (tree : FileTree) (path : SystemPath) : Except ReadError FileTree := do
  if path.bytes = [] then throw .notFound
  if 0 ∈ path.bytes then throw .nulByte
  if path.bytes.length > longestPath then throw .nameTooLong
  let way ← path.components.foldlM (follow tree) []
  match tree.lookup way with
  | none => throw .notFound
  | some found =>
      if path.mustBeDirectory && !found.isDirectory then throw .notDirectory
      return found

end FileTree

/-- What paths lead to, wherever that comes from. -/
structure Files where
  locate : SystemPath → Except ReadError FileTree

/-- The paths of a tree, followed from its top. -/
def FileTree.files (tree : FileTree) : Files := ⟨tree.resolve⟩

namespace Files

/-- Whether a path leads to a directory; one that cannot be followed does not. -/
def leadsToDirectory (files : Files) (path : SystemPath) : Bool :=
  (files.locate path).toOption.any FileTree.isDirectory

/-- The bytes of a file. -/
def readBytes (files : Files) (path : SystemPath) : Except ReadError (List UInt8) := do
  match ← files.locate path with
  | .file bytes => return bytes
  | .directory _ => throw .isDirectory

/-- The text of a file. -/
def readText (files : Files) (path : SystemPath) : Except ReadError String := do
  match Text.decode? (← files.readBytes path) with
  | some text => return text
  | none => throw .notText

end Files

end Heredoc
