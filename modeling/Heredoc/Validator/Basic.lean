import Heredoc.Json.Check
import Heredoc.Python.Reply
import Heredoc.Xml.Check
import Heredoc.Yaml.Check

/-!
# Validators

A validator takes the text of a body and ends in one of three ways: with findings, with a failure
of its own, or by crashing.
-/

namespace Heredoc

/-- How a validator ends. -/
inductive Outcome where
  | findings (findings : List LocalDiagnostic)
  | failed (message : String)
  | ioFailed (message : String)
  /-- It crashed, with a message if that is text. -/
  | crashed (message : Option String)
deriving DecidableEq, Repr

/-- The message of an outcome that gives no findings. -/
def Outcome.failure? : Outcome → Option String
  | .findings _ => none
  | .failed message => some message
  | .ioFailed message => some ("validator I/O failed: " ++ message)
  | .crashed message => some ("validator panicked: " ++ message.getD "unknown panic")

/-- A validator: its key, how many milliseconds it takes for a body, and what it makes of it. -/
structure Validator where
  key : String
  duration : String → Nat
  run : String → Outcome

namespace Validator

/-- A validator that takes no time and gives at most one finding. -/
def ofCheck (key : String) (check : String → Option LocalDiagnostic) : Validator where
  key
  duration _ := 0
  run body := .findings (check body).toList

/-- The validator for JSON. -/
def json : Validator := ofCheck "json" Json.check

/-- The validator for YAML. -/
def yaml : Validator := ofCheck "yaml" Yaml.check

/-- The validator for XML. -/
def xml : Validator := ofCheck "xml" Xml.check

/-- The validator for Python. `launch` runs the interpreter on a body, if it can be started; an
interpreter that cannot gives no findings. -/
def python (launch : String → Option Python.Run) : Validator where
  key := "python"
  duration _ := 0
  run body := .findings (((launch body).map Python.Run.findings).getD [])

end Validator

end Heredoc
