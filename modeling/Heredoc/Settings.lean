import Heredoc.Assoc
import Heredoc.Python.Reply

/-!
# Settings

What can be set: the size limit of bodies, the quiet time before a check, the Python interpreter,
and which validators run.
-/

namespace Heredoc

/-- The settings of a check. -/
structure Settings where
  /-- Bodies with more bytes are not looked at. -/
  maxBytes : Nat := 65536
  /-- The quiet time before a check, in milliseconds. -/
  debounce : Nat := 250
  /-- The interpreter that checks Python. -/
  python : String := Python.defaultInterpreter
  /-- Which validators run; one that is not listed does. -/
  validate : Assoc String Bool := []
deriving DecidableEq, Repr, Inhabited

namespace Settings

/-- Whether the validator with a key runs. -/
def isEnabled (settings : Settings) (key : String) : Bool :=
  (settings.validate.get? key).getD true

/-- Turns a validator on or off. -/
def setEnabled (settings : Settings) (key : String) (enabled : Bool) : Settings :=
  { settings with validate := settings.validate.put key enabled }

/-- Turns validators on or off, in order. -/
def setAll (settings : Settings) (flags : List (String × Bool)) : Settings :=
  flags.foldl (fun settings flag => settings.setEnabled flag.1 flag.2) settings

/-- The listed validators in the order of their keys. -/
def flags (settings : Settings) : List (String × Bool) :=
  settings.validate.mergeSort fun flag other => flag.1 ≤ other.1

@[simp] theorem isEnabled_setEnabled (settings : Settings) (key other : String)
    (enabled : Bool) :
    (settings.setEnabled key enabled).isEnabled other =
      if key = other then enabled else settings.isEnabled other := by
  simp only [isEnabled, setEnabled, Assoc.get?_put]
  split <;> rfl

end Settings

end Heredoc
