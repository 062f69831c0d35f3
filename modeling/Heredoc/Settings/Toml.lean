import Heredoc.Settings.Decode
import Heredoc.Toml.Document

/-!
# Settings from TOML

The entries are looked at in the order of their keys, and the first that does not fit is refused.
-/

namespace Heredoc

/-- The words for the type of a value. -/
def Toml.Value.typeText : Toml.Value → String
  | .text value => "string " ++ Text.quoted value
  | .integer value => "integer `" ++ toString value ++ "`"
  | .binary value => "floating point `" ++ Decimal.neverExponent.write value ++ "`"
  | .bool value => "boolean `" ++ toString value ++ "`"
  | .datetime _ | .table _ => "map"
  | .array _ => "sequence"

namespace Settings

/-- Refuses a value for its type. -/
def wrongType {α : Type} (value : Toml.Value) (expected : String) : Except String α :=
  .error ("invalid type: " ++ value.typeText ++ ", expected " ++ expected)

/-- A number of 64 bits without a sign. -/
def tomlNatural (expected : String) (value : Toml.Value) : Except String Nat :=
  match value with
  | .integer n =>
      if n < 0 then
        .error ("invalid value: integer `" ++ toString n ++ "`, expected " ++ expected)
      else if n < UInt64.size then .ok n.toNat
      else wrongType value expected
  | _ => wrongType value expected

/-- A text. -/
def tomlText (value : Toml.Value) : Except String String :=
  match value with
  | .text text => .ok text
  | _ => wrongType value "a string"

/-- A truth value. -/
def tomlBool (value : Toml.Value) : Except String Bool :=
  match value with
  | .bool flag => .ok flag
  | _ => wrongType value "a boolean"

/-- Entries in the order of their keys. -/
def inKeyOrder (entries : List (String × Toml.Value)) : List (String × Toml.Value) :=
  entries.mergeSort fun entry other => entry.1 ≤ other.1

/-- A table of truth values. A date counts as a table that holds its text. -/
def tomlFlags (value : Toml.Value) : Except String (Assoc String Bool) :=
  match value with
  | .table entries =>
      (inKeyOrder entries).foldlM
        (fun (flags : Assoc String Bool) entry => do
          return flags.put entry.1 (← tomlBool entry.2))
        []
  | .datetime text => wrongType (.text text) "a boolean"
  | _ => wrongType value "a map"

/-- Adds what an entry says. -/
def Draft.addToml (draft : Draft) (key : String) (value : Toml.Value) : Except String Draft :=
  if key = "max_bytes" then
    (tomlNatural "usize" value).map fun n => { draft with maxBytes := some n }
  else if key = "debounce_ms" then
    (tomlNatural "u64" value).map fun n => { draft with debounce := some n }
  else if key = "python" then
    (tomlText value).map fun text => { draft with python := some text }
  else if key = "validate" then
    (tomlFlags value).map fun flags => { draft with validate := some flags }
  else .error ("unknown field `" ++ key ++ "`, expected one of " ++ Json.nameList names)

/-- Why a TOML text gives no settings. -/
inductive TomlError where
  /-- It is not well formed, or a number in it is too large to be named. -/
  | malformed
  /-- Its content is not what it should be. -/
  | content (message : String)
deriving DecidableEq, Repr

/-- The settings that a TOML text describes. -/
def ofToml (text : String) : Except TomlError Settings :=
  match Toml.parse? text with
  | none => .error .malformed
  | some entries =>
      match (inKeyOrder entries).foldlM (fun (draft : Draft) entry =>
          draft.addToml entry.1 entry.2) {} with
      | .ok draft => .ok draft.settings
      | .error message =>
          if Toml.Value.entriesFit entries then .error (.content message)
          else .error .malformed

end Settings

end Heredoc
