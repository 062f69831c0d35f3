import Heredoc.Json.Decode
import Heredoc.Settings

/-!
# Settings from JSON

Every setting may be missing, but nothing else may be there.
-/

namespace Heredoc.Settings

/-- The settings as far as they were read. -/
structure Draft where
  maxBytes : Option Nat := none
  debounce : Option Nat := none
  python : Option String := none
  validate : Option (Assoc String Bool) := none

namespace Draft

/-- The settings, with the standard ones for those that are missing. -/
def settings (draft : Draft) : Settings :=
  let standard : Settings := {}
  { maxBytes := draft.maxBytes.getD standard.maxBytes
    debounce := draft.debounce.getD standard.debounce
    python := draft.python.getD standard.python
    validate := draft.validate.getD standard.validate }

end Draft

/-- The names of the settings. -/
def names : List String := ["max_bytes", "debounce_ms", "python", "validate"]

/-- How settings are read. -/
def record : Json.Record Draft Settings where
  name := "ValidationConfig"
  fields :=
    [.slot "max_bytes" (·.maxBytes) (fun draft value => { draft with maxBytes := some value })
       (Json.natural UInt64.size "usize"),
     .slot "debounce_ms" (·.debounce) (fun draft value => { draft with debounce := some value })
       (Json.natural UInt64.size "u64"),
     .slot "python" (·.python) (fun draft value => { draft with python := some value })
       Json.text,
     .slot "validate" (·.validate) (fun draft value => { draft with validate := some value })
       (Json.table Json.bool Assoc.put [])]
  start := {}
  closed := true
  mayBeShort := true
  finish draft := .ok draft.settings

/-- The settings that a JSON text describes. -/
def ofJson (text : String) : Except Json.Problem Settings :=
  Json.decode record.read text

end Heredoc.Settings
