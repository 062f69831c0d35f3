import Heredoc.FileTree
import Heredoc.Settings.Toml

/-!
# Settings files

Settings are read from a file that is named, which must be there, or from the standard one, which
need not be; after that come changes to single settings.
-/

namespace Heredoc.Settings

/-- Why a settings file cannot be used. -/
inductive LoadFault where
  | unreadable (error : ReadError)
  | malformed
  | content (message : String)
deriving DecidableEq, Repr

/-- A settings file that cannot be used. -/
structure LoadError where
  path : Path
  fault : LoadFault
deriving DecidableEq, Repr

/-- Reads settings from a file. -/
def load (files : Files) (path : Path) : Except LoadError Settings :=
  match files.readText path with
  | .error error => .error ⟨path, .unreadable error⟩
  | .ok text =>
      match ofToml text with
      | .ok settings => .ok settings
      | .error .malformed => .error ⟨path, .malformed⟩
      | .error (.content message) => .error ⟨path, .content message⟩

/-- Reads settings from a file, or takes the standard ones if nothing is there. -/
def loadOrStandard (files : Files) (path : Path) : Except LoadError Settings :=
  match files.locate path with
  | .ok _ => load files path
  | .error _ => .ok {}

/-- What is asked for in place of the standard settings. -/
structure Request where
  file : Option Path := none
  maxBytes : Option Nat := none
  disable : List String := []
deriving DecidableEq, Repr

/-- Which settings file cannot be used, and why. -/
inductive ResolveError where
  | named (error : LoadError)
  | standard (error : LoadError)
deriving DecidableEq, Repr

namespace ResolveError

/-- What was tried. -/
def context : ResolveError → String
  | .named _ => "failed to load --config"
  | .standard _ => "failed to load default config"

/-- The file that cannot be used. -/
def cause : ResolveError → LoadError
  | .named error => error
  | .standard error => error

end ResolveError

/-- The settings of a file with the changes that are asked for. -/
def Request.applied (request : Request) (settings : Settings) : Settings :=
  ({ settings with maxBytes := request.maxBytes.getD settings.maxBytes } : Settings).setAll
    (request.disable.map fun key => (key, false))

/-- The settings that hold for a request, when the standard settings file is at a path. -/
def Request.resolve (request : Request) (files : Files) (standard : Path) :
    Except ResolveError Settings :=
  match request.file with
  | some path =>
      match load files path with
      | .ok settings => .ok (request.applied settings)
      | .error error => .error (.named error)
  | none =>
      match loadOrStandard files standard with
      | .ok settings => .ok (request.applied settings)
      | .error error => .error (.standard error)

end Heredoc.Settings
