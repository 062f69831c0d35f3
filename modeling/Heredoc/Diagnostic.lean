import Heredoc.Position

/-!
# Diagnostics

A validator speaks about the body it was given (`LocalDiagnostic`); a report speaks about the
script (`Diagnostic`). `LocalDiagnostic.place?` carries the one to the other: it moves lines,
keeps characters, and drops what has no range.
-/

namespace Heredoc

/-- How much a finding matters, from most to least. -/
inductive Severity where
  | error
  | warning
  | information
  | hint
deriving DecidableEq, Repr, Inhabited, Ord

namespace Severity

/-- The severity with this number; an unknown number is a hint. -/
def ofNumber : UInt8 → Severity
  | 1 => .error
  | 2 => .warning
  | 3 => .information
  | _ => .hint

/-- The number of a severity, from one. -/
def number : Severity → UInt8
  | .error => 1
  | .warning => 2
  | .information => 3
  | .hint => 4

/-- The name in structured reports. -/
def name : Severity → String
  | .error => "error"
  | .warning => "warning"
  | .information => "information"
  | .hint => "hint"

/-- The word in printed lines. -/
def label : Severity → String
  | .error => "error"
  | .warning => "warning"
  | .information => "info"
  | .hint => "hint"

/-- All severities in order. -/
def all : List Severity := [.error, .warning, .information, .hint]

/-- The severity with this name. -/
def ofName? (text : String) : Option Severity :=
  all.find? fun severity => severity.name = text

end Severity

/-- Why a diagnostic was made. -/
inductive Code where
  /-- The validator found fault with the body. -/
  | malformed
  /-- The body was larger than the limit and was not looked at. -/
  | tooLarge
  /-- The validator itself broke down. -/
  | validatorFailed
deriving DecidableEq, Repr, Inhabited

namespace Code

/-- The name in structured reports. -/
def name : Code → String
  | .malformed => "syntax"
  | .tooLarge => "skipped-too-large"
  | .validatorFailed => "validator-failed"

/-- All codes in order. -/
def all : List Code := [.malformed, .tooLarge, .validatorFailed]

/-- The code with this name. -/
def ofName? (text : String) : Option Code :=
  all.find? fun code => code.name = text

end Code

/-- A finding in the coordinates of a body; one without a range cannot be placed. -/
structure LocalDiagnostic where
  message : String
  severity : Severity
  range : Option Range
deriving DecidableEq, Repr, Inhabited

namespace LocalDiagnostic

/-- An error at a range. -/
def error (message : String) (range : Range) : LocalDiagnostic :=
  { message, severity := .error, range := some range }

end LocalDiagnostic

/-- A finding in the coordinates of the script. -/
structure Diagnostic where
  message : String
  severity : Severity
  range : Range
  source : String
  code : Code
deriving DecidableEq, Repr, Inhabited

namespace Diagnostic

/-- The source named in the diagnostics of a validator. -/
def sourceOf (key : String) : String :=
  "heredoc:" ++ key

/-- The note for a body over the size limit. -/
def tooLarge (key : String) (line : UInt32) : Diagnostic where
  message := "skipped validation (exceeds size limit)"
  severity := .information
  range := .lineStart line
  source := sourceOf key
  code := .tooLarge

/-- The error for a validator that broke down. -/
def validatorFailed (key : String) (line : UInt32) (message : String) : Diagnostic where
  message := message
  severity := .error
  range := .lineStart line
  source := sourceOf key
  code := .validatorFailed

/-- Whether the diagnostic counts as an error. -/
def isError (diagnostic : Diagnostic) : Bool :=
  diagnostic.severity = .error

/-- Source and message as printed. -/
def text (diagnostic : Diagnostic) : String :=
  "[" ++ diagnostic.source ++ "] " ++ diagnostic.message

end Diagnostic

/-- Carries a finding from a body to the script; without a range there is nothing to carry. -/
def LocalDiagnostic.place? (bodyStart : Nat) (key : String) (finding : LocalDiagnostic) :
    Option Diagnostic :=
  finding.range.map fun range =>
    { message := finding.message
      severity := finding.severity
      range := range.offsetLines (clamp32 bodyStart)
      source := Diagnostic.sourceOf key
      code := .malformed }

end Heredoc
