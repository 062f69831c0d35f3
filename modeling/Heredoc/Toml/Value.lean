import Heredoc.Decimal.Binary64

/-!
# TOML values

What a TOML document can hold.
-/

namespace Heredoc.Toml

/-- A value; a date or a time is kept as it is written in full. -/
inductive Value where
  | text (value : String)
  | integer (value : Int)
  | binary (value : Binary64)
  | bool (value : Bool)
  | datetime (text : String)
  | array (items : List Value)
  | table (entries : List (String × Value))
deriving Repr

mutual

/-- Whether every number in a value fits 64 bits, with a sign or as a binary number. -/
def Value.fits : Value → Bool
  | .integer value => -(2 ^ 63) ≤ value && value < 2 ^ 63
  | .array items => Value.allFit items
  | .table entries => Value.entriesFit entries
  | _ => true

/-- Whether every number in some values fits 64 bits. -/
def Value.allFit : List Value → Bool
  | [] => true
  | item :: rest => item.fits && Value.allFit rest

/-- Whether every number in some entries fits 64 bits. -/
def Value.entriesFit : List (String × Value) → Bool
  | [] => true
  | (_, value) :: rest => value.fits && Value.entriesFit rest

end

end Heredoc.Toml
