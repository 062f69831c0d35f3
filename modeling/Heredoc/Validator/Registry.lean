import Heredoc.Assoc
import Heredoc.Text.Quoted
import Heredoc.Validator.Basic

/-!
# Validator registries

One validator for each key.
-/

namespace Heredoc

/-- Validators by their keys. -/
structure Registry where
  validators : Assoc String Validator

namespace Registry

/-- The registry without validators. -/
def empty : Registry := ⟨[]⟩

/-- Puts a validator under its key, in place of a former one. -/
def register (registry : Registry) (validator : Validator) : Registry :=
  ⟨registry.validators.put validator.key validator⟩

/-- Puts each validator under its key, in order. -/
def registerAll (registry : Registry) (validators : List Validator) : Registry :=
  validators.foldl register registry

/-- The validator of a key. -/
def get? (registry : Registry) (key : String) : Option Validator :=
  registry.validators.get? key

/-- Whether a key has a validator. -/
def contains (registry : Registry) (key : String) : Bool :=
  registry.validators.contains key

/-- The keys in order. -/
def keys (registry : Registry) : List String :=
  registry.validators.keys.mergeSort fun key other => key ≤ other

/-- The number of validators. -/
def size (registry : Registry) : Nat := registry.validators.length

/-- The keys as a set in braces. -/
def text (registry : Registry) : String :=
  "\x7b" ++ ", ".intercalate (registry.keys.map Text.quoted) ++ "\x7d"

/-- The four validators that are known from the start. -/
def standard (launch : String → Option Python.Run) : Registry :=
  empty.registerAll [.json, .yaml, .xml, .python launch]

end Registry

end Heredoc
