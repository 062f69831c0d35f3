import Heredoc.Text.Lines
import Heredoc.Text.Search
import Heredoc.Validator.Basic

/-!
# Scripted validators

Validators that follow a script whatever the body says, or look for a word in it: stand-ins to
try out a dispatch or a schedule.
-/

namespace Heredoc.Validator

/-- What a scripted validator does. -/
inductive Script where
  | fail (message : String)
  | ioFail (message : String)
  | crash (message : Option String)
  /-- Gives the body back as a hint. -/
  | echo
  /-- Marks each line that contains a word. -/
  | flag (word : String)
  | report (findings : List LocalDiagnostic)

/-- The numbers of the lines of a body that contain a word. -/
def linesWith (word body : String) : List Nat :=
  (Text.streamLines body.toList).zipIdx.filterMap fun (line, index) =>
    if Text.contains word.toList line then some index else none

/-- The outcome of a script on a body. -/
def Script.run (script : Script) (body : String) : Outcome :=
  match script with
  | .fail message => .failed message
  | .ioFail message => .ioFailed message
  | .crash message => .crashed message
  | .echo => .findings [⟨body, .hint, some (.lineStart 0)⟩]
  | .flag word =>
      .findings ((linesWith word body).map fun line =>
        .error "flagged" (.lineStart (clamp32 line)))
  | .report findings => .findings findings

/-- A validator that follows a script and takes so many milliseconds for any body. -/
def scripted (key : String) (duration : Nat) (script : Script) : Validator :=
  { key, duration := fun _ => duration, run := script.run }

end Heredoc.Validator
