import Heredoc.Json.Token
import Heredoc.Text.Quoted

/-!
# Decoding JSON

Reading tokens as values of given types. A value of the wrong type is refused where it was read; a
record that has a wrong, repeated or missing member is refused where its reading stands: before the
next token, or past it if that closes the record.
-/

namespace Heredoc.Json

/-- Why something cannot be decoded: a problem with its place, or a message about a record whose
reading stands before these tokens. -/
inductive Fault where
  | found (problem : Problem)
  | pending (message : String) (rest : List Token)

/-- What reads a value from the front of tokens. -/
abbrev Decoder (α : Type) := List Token → Except Fault (α × List Token)

/-- The next token and those after it. -/
def next : List Token → Token × List Token
  | [] => (⟨.finished, 0, 0⟩, [])
  | token :: rest => (token, rest)

/-- Refuses a token that stands where it should not. -/
def refuse {α : Type} (token : Token) (cause : Cause) : Except Fault α :=
  .error (.found (token.unexpected cause))

/-- Refuses content at an offset. -/
def refuseContent {α : Type} (message : String) (index : Nat) : Except Fault α :=
  .error (.found ⟨.content message, index⟩)

/-! ## Values of simple types -/

/-- The words for the type of a number. -/
def NumberValue.typeText : NumberValue → String
  | .whole value => "integer `" ++ toString value ++ "`"
  | .binary value => "floating point `" ++ Decimal.signedExponent.write value ++ "`"

/-- Refuses a value for its type. -/
def wrongType {α : Type} (token : Token) (expected : String) : Except Fault α :=
  let refuseAt (index : Nat) (found : String) : Except Fault α :=
    refuseContent ("invalid type: " ++ found ++ ", expected " ++ expected) index
  match token.kind with
  | .null => refuseAt token.stop "null"
  | .bool value => refuseAt token.stop ("boolean `" ++ toString value ++ "`")
  | .number number =>
      match number.value with
      | .ok value => refuseAt token.stop value.typeText
      | .error problem => .error (.found problem)
  | .text value => refuseAt token.stop ("string " ++ Text.quoted value)
  | .openArray => refuseAt token.start "sequence"
  | .openObject => refuseAt token.start "map"
  | .brokenText problem _ | .broken problem _ => .error (.found problem)
  | .finished => refuse token .endInValue
  | _ => refuse token .expectedValue

/-- Reads a whole number below a limit. -/
def natural (limit : Nat) (expected : String) : Decoder Nat := fun tokens =>
  let (token, rest) := next tokens
  match token.kind with
  | .number number =>
      match number.value with
      | .ok (.whole value) =>
          if 0 ≤ value ∧ value < limit then .ok (value.toNat, rest)
          else
            refuseContent ("invalid value: integer `" ++ toString value ++ "`, expected " ++
              expected) token.stop
      | _ => wrongType token expected
  | _ => wrongType token expected

/-- Reads a number of 32 bits. -/
def word32 : Decoder UInt32 := fun tokens =>
  (natural UInt32.size "u32" tokens).map fun (value, rest) => (value.toUInt32, rest)

/-- Reads a text. -/
def text : Decoder String := fun tokens =>
  let (token, rest) := next tokens
  match token.kind with
  | .text value => .ok (value, rest)
  | _ => wrongType token "a string"

/-- Reads a truth value. -/
def bool : Decoder Bool := fun tokens =>
  let (token, rest) := next tokens
  match token.kind with
  | .bool value => .ok (value, rest)
  | _ => wrongType token "a boolean"

/-- Reads a value, or nothing from `null`. -/
def optional {α : Type} (decode : Decoder α) : Decoder (Option α) := fun tokens =>
  let (token, rest) := next tokens
  match token.kind with
  | .null => .ok (none, rest)
  | _ => (decode tokens).map fun (value, rest) => (some value, rest)

/-- Names between backticks, separated by commas. -/
def nameList (names : List String) : String :=
  ", ".intercalate (names.map fun name => "`" ++ name ++ "`")

/-- Reads the colon after a key. -/
def colon (tokens : List Token) : Except Fault (List Token) :=
  let (token, rest) := next tokens
  match token.kind with
  | .colon => .ok rest
  | .finished => refuse token .endInObject
  | _ => refuse token .expectedColon

/-- Reads the name of a choice. -/
def choiceName {α : Type} (ofName? : String → Option α) (names : List String)
    (expected : String) : Decoder α := fun tokens =>
  let (token, rest) := next tokens
  match token.kind with
  | .text value =>
      match ofName? value with
      | some choice => .ok (choice, rest)
      | none =>
          refuseContent ("unknown variant `" ++ value ++ "`, expected one of " ++
            nameList names) token.stop
  | _ => wrongType token expected

/-- Reads one of some choices: its name, or an object with the name as key and `null` as
value. -/
def choice {α : Type} (ofName? : String → Option α) (names : List String) : Decoder α :=
  fun tokens => do
    let (token, rest) := next tokens
    match token.kind with
    | .text _ => choiceName ofName? names "variant identifier" tokens
    | .openObject =>
        let (value, rest) ← choiceName ofName? names "variant identifier" rest
        let (unit, rest) := next (← colon rest)
        match unit.kind with
        | .null =>
            let (closer, rest) := next rest
            match closer.kind with
            | .closeObject => return (value, rest)
            | .finished => .error (.found ⟨.endInObject, closer.start⟩)
            | _ => .error (.found ⟨.expectedValue, closer.start⟩)
        | _ => wrongType unit "unit"
    | .brokenText problem _ => .error (.found problem)
    | .finished => refuse token .endInValue
    | _ => refuse token .expectedValue

/-! ## Values that are not looked at -/

/-- What comes next in a value that is not looked at. -/
inductive Skipping where
  | value
  | afterOpen
  | afterValue
  | key
  | colon

/-- Takes one token of a value that is not looked at; `frames` holds for each open bracket whether
it is that of an object. Gives what comes next, or nothing when the value is over. -/
def skipToken (frames : List Bool) (mode : Skipping) (token : Token) :
    Except Problem (Option (List Bool × Skipping)) :=
  let ended (frames : List Bool) : Option (List Bool × Skipping) :=
    if frames.isEmpty then none else some (frames, .afterValue)
  let inObject := frames.head?.getD false
  let closes : Bool := match token.kind with
    | .closeArray => !inObject
    | .closeObject => inObject
    | _ => false
  let takeValue : Except Problem (Option (List Bool × Skipping)) :=
    match token.kind with
    | .null | .bool _ | .number _ | .text _ | .brokenText _ none => .ok (ended frames)
    | .openArray => .ok (some (false :: frames, .afterOpen))
    | .openObject => .ok (some (true :: frames, .afterOpen))
    | .brokenText _ (some problem) | .broken _ problem => .error problem
    | .finished => .error (token.unexpected .endInValue)
    | _ => .error (token.unexpected .expectedValue)
  let takeKey : Except Problem (Option (List Bool × Skipping)) :=
    match token.kind with
    | .text _ | .brokenText _ none => .ok (some (frames, .colon))
    | .brokenText _ (some problem) => .error problem
    | .finished => .error (token.unexpected .endInObject)
    | _ => .error (token.unexpected .keyMustBeText)
  match mode with
  | .value => takeValue
  | .key => takeKey
  | .colon =>
      match token.kind with
      | .colon => .ok (some (frames, .value))
      | .finished => .error (token.unexpected .endInObject)
      | _ => .error (token.unexpected .expectedColon)
  | .afterOpen =>
      if closes then .ok (ended frames.tail)
      else match token.kind with
        | .finished => .error (token.unexpected (if inObject then .endInObject else .endInArray))
        | _ => if inObject then takeKey else takeValue
  | .afterValue =>
      if closes then .ok (ended frames.tail)
      else match token.kind with
        | .comma => .ok (some (frames, if inObject then .key else .value))
        | .finished => .error (token.unexpected (if inObject then .endInObject else .endInArray))
        | _ =>
            .error (token.unexpected
              (if inObject then .expectedCommaOrObjectEnd else .expectedCommaOrArrayEnd))

/-- Steps over a value that is not looked at. -/
def skipValue (frames : List Bool) (mode : Skipping) :
    List Token → Except Fault (List Token)
  | [] => .ok []
  | token :: rest =>
      match skipToken frames mode token with
      | .error problem => .error (.found problem)
      | .ok none => .ok rest
      | .ok (some (frames, mode)) => skipValue frames mode rest

/-! ## Members and items -/

/-- The next key of an object, if there is one; then its colon comes next. -/
def nextKey (first : Bool) (tokens : List Token) :
    Except Fault (Option (String × List Token)) :=
  let (token, rest) := next tokens
  match token.kind with
  | .closeObject => .ok none
  | .finished => refuse token .endInObject
  | _ =>
      let ofToken (token : Token) (rest : List Token) :
          Except Fault (Option (String × List Token)) :=
        match token.kind with
        | .text key => .ok (some (key, rest))
        | .brokenText problem _ => .error (.found problem)
        | _ => refuse token .keyMustBeText
      if first then ofToken token rest
      else match token.kind with
        | .comma =>
            let (token, rest) := next rest
            match token.kind with
            | .closeObject => refuse token .trailingComma
            | .finished => refuse token .endInValue
            | _ => ofToken token rest
        | _ => refuse token .expectedCommaOrObjectEnd

/-- The tokens from the next item of an array on, if there is one. -/
def nextItem (first : Bool) (tokens : List Token) : Except Fault (Option (List Token)) :=
  let (token, rest) := next tokens
  match token.kind with
  | .closeArray => .ok none
  | .finished => refuse token .endInArray
  | kind =>
      if first then .ok (some tokens)
      else match kind with
        | .comma =>
            let (token, _) := next rest
            match token.kind with
            | .closeArray => refuse token .trailingComma
            | .finished => refuse token .endInValue
            | _ => .ok (some rest)
        | _ => refuse token .expectedCommaOrArrayEnd

/-- Closes an array whose items have been read. -/
def endArray (tokens : List Token) : Except Fault (List Token) :=
  let (token, rest) := next tokens
  match token.kind with
  | .closeArray => .ok rest
  | .comma =>
      let (token, _) := next rest
      match token.kind with
      | .closeArray => refuse token .trailingComma
      | _ => refuse token .trailingCharacters
  | .finished => refuse token .endInArray
  | _ => refuse token .trailingCharacters

/-- Closes an object whose members have been read. -/
def endObject (tokens : List Token) : Except Fault (List Token) :=
  let (token, rest) := next tokens
  match token.kind with
  | .closeObject => .ok rest
  | .comma => refuse token .trailingComma
  | .finished => refuse token .endInObject
  | _ => refuse token .trailingCharacters

/-- Where the reading of a record stands: past its closing bracket if that comes next, else before
the next token. -/
def standing (closer : Kind) (rest : List Token) : Nat :=
  let (token, _) := next rest
  if token.kind = closer then token.stop else token.start

/-- Gives a pending message about a record its place; `closer` is the closing bracket of the
record. -/
def placed {α : Type} (closer : Kind) : Except Fault α → Except Fault α
  | .error (.pending message rest) => refuseContent message (standing closer rest)
  | result => result

/-- Reads an object with any keys, a later member in place of an earlier one; at most `limit`
members. -/
def members {α σ : Type} (decode : Decoder α) (put : σ → String → α → σ) :
    Nat → Bool → σ → Decoder σ
  | 0, _, state, tokens => .ok (state, tokens)
  | limit + 1, first, state, tokens => do
      match ← nextKey first tokens with
      | none => return (state, tokens)
      | some (key, rest) =>
          let (value, rest) ← decode (← colon rest)
          members decode put limit false (put state key value) rest

/-- Reads an object with any keys. -/
def table {α σ : Type} (decode : Decoder α) (put : σ → String → α → σ) (start : σ) :
    Decoder σ := fun tokens => do
  let (token, rest) := next tokens
  match token.kind with
  | .openObject =>
      let (state, rest) ← members decode put tokens.length true start rest
      return (state, ← endObject rest)
  | _ => wrongType token "a map"

/-! ## Records -/

/-- A member of a record that is being read: its name, whether it was read, and how to read it. -/
structure Field (σ : Type) where
  name : String
  isSet : σ → Bool
  read : σ → Decoder σ

/-- A field that is read into an optional slot. -/
def Field.slot {σ α : Type} (name : String) (get : σ → Option α) (set : σ → α → σ)
    (decode : Decoder α) : Field σ where
  name
  isSet state := (get state).isSome
  read state tokens := (decode tokens).map fun (value, rest) => (set state value, rest)

/-- A record: its name, its fields in order, and how it is made of them. -/
structure Record (σ α : Type) where
  name : String
  fields : List (Field σ)
  start : σ
  /-- Whether members that are no fields are refused. -/
  closed : Bool
  /-- Whether an array may end before its last field. -/
  mayBeShort : Bool
  /-- The record, or the name of a field that is missing. -/
  finish : σ → Except String α

namespace Record

variable {σ α : Type}

/-- Reads the members of an object; at most `limit` of them. -/
def readMembers (record : Record σ α) : Nat → Bool → σ → Decoder σ
  | 0, _, state, tokens => .ok (state, tokens)
  | limit + 1, first, state, tokens => do
      match ← nextKey first tokens with
      | none => return (state, tokens)
      | some (key, rest) =>
          match record.fields.find? (·.name = key) with
          | some field =>
              if field.isSet state then
                .error (.pending ("duplicate field `" ++ key ++ "`") rest)
              else
                let (state, rest) ← field.read state (← colon rest)
                record.readMembers limit false state rest
          | none =>
              if record.closed then
                .error (.pending ("unknown field `" ++ key ++ "`, expected one of " ++
                  nameList (record.fields.map (·.name))) rest)
              else
                let rest ← skipValue [] .value (← colon rest)
                record.readMembers limit false state rest

/-- Reads the fields from the items of an array; `count` of them were read before. -/
def readItems (record : Record σ α) (count : Nat) :
    List (Field σ) → σ → Decoder σ
  | [], state, tokens => .ok (state, tokens)
  | field :: fields, state, tokens => do
      match ← nextItem (count = 0) tokens with
      | some rest =>
          let (state, rest) ← field.read state rest
          record.readItems (count + 1) fields state rest
      | none =>
          if record.mayBeShort then return (state, tokens)
          else
            .error (.pending ("invalid length " ++ toString count ++ ", expected struct " ++
              record.name ++ " with " ++ toString record.fields.length ++ " elements") tokens)

/-- Makes the record of what was read. -/
def conclude (record : Record σ α) (state : σ) (rest : List Token) : Except Fault α :=
  match record.finish state with
  | .ok value => .ok value
  | .error name => .error (.pending ("missing field `" ++ name ++ "`") rest)

/-- Reads a record from an object, or from an array of its fields. -/
def read (record : Record σ α) : Decoder α := fun tokens =>
  let (token, rest) := next tokens
  match token.kind with
  | .openObject => placed .closeObject do
      let (state, rest) ← record.readMembers tokens.length true record.start rest
      let value ← record.conclude state rest
      return (value, ← endObject rest)
  | .openArray => placed .closeArray do
      let (state, rest) ← record.readItems 0 record.fields record.start rest
      let value ← record.conclude state rest
      return (value, ← endArray rest)
  | _ => wrongType token ("struct " ++ record.name)

end Record

/-- Decodes a whole text. -/
def decode {α : Type} (decoder : Decoder α) (text : String) : Except Problem α :=
  let outcome : Except Fault α := do
    let (value, rest) ← decoder (tokens text.toList)
    let (token, _) := next rest
    match token.kind with
    | .finished => return value
    | _ => refuse token .trailingCharacters
  match outcome with
  | .ok value => .ok value
  | .error (.found problem) => .error problem
  | .error (.pending message rest) => .error ⟨.content message, (next rest).1.start⟩

end Heredoc.Json
