import Heredoc.Scan
import Heredoc.Settings
import Heredoc.Validator.Registry

/-!
# The engine

The engine joins tags, validators and settings. A dispatch sends the body of each region to the
validator of its tag and carries the findings to the coordinates of the script, region by region.
Regions with an unknown tag, a disabled validator or none at all leave no trace.
-/

namespace Heredoc

/-- Tags, validators and settings. -/
structure Engine where
  tags : TagTable
  validators : Registry
  settings : Settings

/-- What came of some regions. -/
structure Dispatched where
  diagnostics : List Diagnostic
  /-- The keys of the validators that ran. -/
  calls : List String
  /-- The time until the last of them was done, in milliseconds. -/
  duration : Nat
deriving DecidableEq, Repr

namespace Dispatched

/-- Nothing came. -/
def nothing : Dispatched := ⟨[], [], 0⟩

/-- What came of two groups of regions that ran side by side. -/
def append (first second : Dispatched) : Dispatched :=
  { diagnostics := first.diagnostics ++ second.diagnostics
    calls := first.calls ++ second.calls
    duration := max first.duration second.duration }

end Dispatched

/-- The diagnostics of an outcome for a body that starts at a line. -/
def Outcome.diagnostics (outcome : Outcome) (bodyStart : Nat) (key : String) :
    List Diagnostic :=
  match outcome with
  | .findings found => found.filterMap (·.place? bodyStart key)
  | failure => (failure.failure?.map (Diagnostic.validatorFailed key (clamp32 bodyStart))).toList

namespace Engine

/-- The key and the validator of a tag, if that may run. -/
def validatorFor? (engine : Engine) (tag : String) : Option (String × Validator) :=
  match engine.tags.lookup tag with
  | none => none
  | some key =>
      if engine.settings.isEnabled key then
        (engine.validators.get? key).map fun validator => (key, validator)
      else none

/-- Checks one region. -/
def dispatchRegion (engine : Engine) (view : View) (region : Region) : Dispatched :=
  match engine.validatorFor? region.tag with
  | none => .nothing
  | some (key, validator) =>
      let body := view.bodyText region
      if body.utf8ByteSize > engine.settings.maxBytes then
        ⟨[.tooLarge key (clamp32 region.bodyStart)], [], 0⟩
      else
        ⟨(validator.run body).diagnostics region.bodyStart key, [key], validator.duration body⟩

/-- Checks regions; the diagnostics keep their order. -/
def dispatch (engine : Engine) (view : View) (regions : List Region) : Dispatched :=
  (regions.map (engine.dispatchRegion view)).foldr Dispatched.append .nothing

/-- Scans a view and checks what was found. -/
def validate (engine : Engine) (view : View) : Except MissingLine Dispatched :=
  (scan engine.tags view).map (engine.dispatch view)

end Engine

end Heredoc
