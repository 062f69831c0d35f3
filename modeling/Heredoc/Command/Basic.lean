import Heredoc.Settings.File

/-!
# Commands

What the program can be asked to do, and how a request can be refused before anything is done.
-/

namespace Heredoc

/-- How the diagnostics of a check are written. -/
inductive Format where
  | text
  | json
deriving DecidableEq, Repr, Inhabited

/-- The name of a format. -/
def Format.name : Format → String
  | .text => "text"
  | .json => "json"

/-- The format with a name. -/
def Format.ofName? (name : String) : Option Format :=
  [Format.text, .json].find? (·.name = name)

/-- What is to be done. -/
inductive Command where
  /-- Check files once. -/
  | check (request : Settings.Request) (format : Format) (files : List Path)
  /-- List the regions of files. -/
  | scan (files : List Path)
  /-- Check scripts whenever they change. -/
  | watch (request : Settings.Request) (paths : List Path)
deriving DecidableEq, Repr

/-- Why arguments do not say what to do. -/
inductive UsageError where
  /-- Help is asked for. -/
  | help
  /-- The version is asked for. -/
  | version
  | nothingGiven
  | unknownCommand
  | unknownArgument
  | missingFiles
  /-- A value is missing, empty, or none of those that are possible. -/
  | invalidValue
  | invalidNumber
  | repeatedOption
  | unexpectedValue
deriving DecidableEq, Repr

namespace UsageError

/-- The exit status: being asked for help or the version is no failure. -/
def status : UsageError → Nat
  | .help | .version => 0
  | _ => 2

/-- The wording of a refusal. -/
def message : UsageError → String
  | .help => "help"
  | .version => "version"
  | .nothingGiven => "no command is given"
  | .unknownCommand => "there is no such command"
  | .unknownArgument => "there is no such option"
  | .missingFiles => "no file is given"
  | .invalidValue => "an option or a file has no proper value"
  | .invalidNumber => "a number is expected"
  | .repeatedOption => "an option is given twice"
  | .unexpectedValue => "an option that takes no value has one"

end UsageError

end Heredoc
