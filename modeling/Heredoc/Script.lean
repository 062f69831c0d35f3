import Heredoc.FileTree
import Heredoc.Text.Blank
import Heredoc.Text.Lines

/-!
# Shell scripts

A file is a shell script if its name has the extension of a shell, or if its first line names a
shell as its interpreter. A walk finds all scripts below a directory, except in hidden
directories; a directory whose name is no text is not hidden. What is below the directory is asked
for by its path, and a path can be too long.
-/

namespace Heredoc.Script

/-- The extensions of scripts. -/
def extensions : List String := ["sh", "bash", "zsh", "ksh"]

/-- The interpreters of scripts. -/
def interpreters : List String := ["sh", "bash", "zsh", "ksh", "dash", "ash"]

/-- Whether the path has the extension of a script. -/
def hasExtension (path : SystemPath) : Bool :=
  (path.extension?.bind FileName.text?).any extensions.contains

/-- The last component of a word that may be a path. -/
def baseName (word : List Char) : String :=
  String.ofList (Text.afterLast '/' word)

/-- The interpreter that the first line names; one named through `env` is its first argument that
is no option. -/
def interpreter? (text : String) : Option String :=
  match Text.streamLines text.toList with
  | ('#' :: '!' :: rest) :: _ =>
      match Text.words rest with
      | [] => none
      | program :: arguments =>
          if baseName program = "env" then
            (arguments.find? fun word => word.head? ≠ some '-').map baseName
          else some (baseName program)
  | _ => none

/-- Whether the first line names the interpreter of a script. -/
def hasShebang (text : String) : Bool :=
  (interpreter? text).any interpreters.contains

/-- Whether a file is a script. -/
def isScript (path : SystemPath) (text : String) : Bool :=
  hasExtension path || hasShebang text

/-- Whether what is at a path counts as a script; only text can name an interpreter, and what cannot
be read is a script only by its name. -/
def isScriptAt (files : Files) (path : SystemPath) : Bool :=
  hasExtension path || (files.readText path).toOption.any hasShebang

/-- Whether a name is hidden. One that is no text never is. -/
def isHidden (name : FileName) : Bool :=
  name.text?.any fun text => text.toList.head? = some '.'

mutual

/-- The scripts below a path that leads to a tree, in no particular order. -/
def below (files : Files) (path : SystemPath) : FileTree → List SystemPath
  | .file _ => []
  | .directory entries => belowEntries files path entries

/-- The scripts among the entries of a directory and below them. -/
def belowEntries (files : Files) (path : SystemPath) :
    List (FileName × FileTree) → List SystemPath
  | [] => []
  | entry :: rest => ofEntry files path entry ++ belowEntries files path rest

/-- The scripts that an entry of a directory gives: itself, or those below it. -/
def ofEntry (files : Files) (path : SystemPath) : FileName × FileTree → List SystemPath
  | (name, tree) =>
      let place := path.join name
      if files.leadsToDirectory place then
        if isHidden name then [] else below files place tree
      else if isScriptAt files place then [place]
      else []

end

/-- The scripts below a path, in order. A path that is no directory is given back as it is. -/
def walk (files : Files) (root : SystemPath) : List SystemPath :=
  match files.locate root with
  | .ok (.directory entries) => SystemPath.sort (belowEntries files root entries)
  | _ => [root]

/-- The scripts below a path, as far as their paths are text. -/
def find (files : Files) (root : Path) : List Path :=
  (walk files root).filterMap SystemPath.text?

end Heredoc.Script
