import Heredoc.Proofs.Json.Numerals

/-!
# The tokens of printed values

Printing and reading meet in the tokens: which tokens a value is read from is said once (`Renders`),
for every layout of the text. Main statement: the tokens of a printed value are such tokens, and the
text after it is read as it would be alone (`lexes_print`).
-/

namespace Heredoc.Json

/-- What stands between two items or members. -/
inductive Separates : Bool → List Token → Prop where
  | first : Separates true []
  | comma {start stop : Nat} : Separates false [⟨.comma, start, stop⟩]

mutual

/-- The tokens are those of the value. -/
inductive Renders : Value → List Token → Prop where
  | null {start stop : Nat} : Renders .null [⟨.null, start, stop⟩]
  | number {value ending start stop : Nat} :
      Renders (.number value)
        [⟨.number ⟨false, Nat.toDigits 10 value, none, none, ending⟩, start, stop⟩]
  | text {value : String} {start stop : Nat} :
      Renders (.text value) [⟨.text value, start, stop⟩]
  | array {items : List Value} {inner : List Token} {start stop last ending : Nat}
      (inside : RendersItems true items inner) :
      Renders (.array items)
        (⟨.openArray, start, stop⟩ :: (inner ++ [⟨.closeArray, last, ending⟩]))
  | object {members : List (String × Value)} {inner : List Token} {start stop last ending : Nat}
      (inside : RendersMembers true members inner) :
      Renders (.object members)
        (⟨.openObject, start, stop⟩ :: (inner ++ [⟨.closeObject, last, ending⟩]))

inductive RendersItems : Bool → List Value → List Token → Prop where
  | nil {first : Bool} : RendersItems first [] []
  | cons {first : Bool} {item : Value} {items : List Value} {separator front back : List Token}
      (separated : Separates first separator)
      (head : Renders item front)
      (tail : RendersItems false items back) :
      RendersItems first (item :: items) (separator ++ (front ++ back))

inductive RendersMembers : Bool → List (String × Value) → List Token → Prop where
  | nil {first : Bool} : RendersMembers first [] []
  | cons {first : Bool} {key : String} {value : Value} {members : List (String × Value)}
      {separator front back : List Token} {start stop mark past : Nat}
      (separated : Separates first separator)
      (head : Renders value front)
      (tail : RendersMembers false members back) :
      RendersMembers first ((key, value) :: members)
        (separator ++ (⟨.text key, start, stop⟩ :: ⟨.colon, mark, past⟩ :: (front ++ back)))

end

/-! ## Pieces of printed text -/

theorem isSpace_of_mem_newLine (level : Nat) : ∀ c ∈ (newLine level).toList, isSpace c = true := by
  intro c member
  rw [newLine, String.toList_append, List.mem_append,
    @String.toList_ofList (List.replicate (2 * level) ' ')] at member
  rcases member with lineFeed | blank
  · rw [List.mem_singleton.mp lineFeed]
    rfl
  · rw [List.eq_of_mem_replicate blank]
    rfl

theorem lexes_null (rest : List Char) : Lexes (Renders .null) "null".toList rest := by
  have read : Lexes (IsToken .null) ('n' :: "ull".toList) rest :=
    lexes_word (fun _ _ => rfl) rfl (fun _ _ => rfl) rfl
  apply read.imp
  rintro _ ⟨start, stop, rfl⟩
  exact .null

-- A number is the one value that depends on what comes next: it is read as far as it can go on.
theorem lexes_number (value : Nat) {rest : List Char} (stops : StopsNumber rest) :
    Lexes (Renders (.number value)) (toString value).toList rest := by
  intro index
  have written : (toString value).toList = Nat.toDigits 10 value := Nat.toList_repr
  have size : Text.byteLength (Nat.toDigits 10 value) = (Nat.toDigits 10 value).length := by
    apply Text.byteLength_of_lt
    intro c member
    have digit := (isWhole_toDigits value).digits c member
    exact Nat.lt_of_le_of_lt (Char.isDigit_iff_toNat.mp digit).2 (by decide)
  rw [written, size]
  exact ⟨_, .number, tokensFrom_whole (isWhole_toDigits value) stops index⟩

theorem lexes_quoted (text : String) (rest : List Char) :
    Lexes (IsToken (.text text)) (quoted text).toList rest := by
  have written :
      (quoted text).toList = '"' :: text.toList.flatMap escapeChar ++ ['"'] := by
    rw [quoted, String.toList_append, String.toList_append,
      @String.toList_ofList (text.toList.flatMap escapeChar)]
    rfl
  have read := lexes_spelled (spellsText_flatMap_escapeChar text.toList) rest
  rwa [String.ofList_toList, ← written] at read

theorem lexes_colon (rest : List Char) : Lexes (IsToken .colon) ": ".toList rest := by
  have colon : Lexes (IsToken .colon) [':'] ([' '] ++ rest) :=
    lexes_mark (fun _ => rfl) rfl (fun _ => rfl) rfl
  refine colon.append_spaces ?_
  intro c member
  rw [List.mem_singleton.mp member]
  rfl

theorem lexes_separator (level : Nat) (first : Bool) (rest : List Char) :
    Lexes (Separates first) ((if first then "" else ",") ++ newLine level).toList rest := by
  rw [String.toList_append]
  refine Lexes.append_spaces ?_ (isSpace_of_mem_newLine level)
  cases first with
  | true => exact Lexes.nil .first _
  | false =>
      have comma : Lexes (IsToken .comma) [','] ((newLine level).toList ++ rest) :=
        lexes_mark (fun _ => rfl) rfl (fun _ => rfl) rfl
      refine comma.imp ?_
      rintro _ ⟨start, stop, rfl⟩
      exact .comma

theorem stopsNumber_newLine (level : Nat) (rest : List Char) :
    StopsNumber ((newLine level).toList ++ rest) := by
  intro c first
  rw [newLine, String.toList_append] at first
  obtain rfl := Option.some.inj first
  rfl

theorem lexes_array
    {items : List Value} {inner rest : List Char}
    (inside : Lexes (RendersItems true items) inner (']' :: rest)) :
    Lexes (Renders (.array items)) (['['] ++ inner ++ [']']) rest := by
  have opener : Lexes (IsToken .openArray) ['['] (inner ++ ([']'] ++ rest)) :=
    lexes_mark (fun _ => rfl) rfl (fun _ => rfl) rfl
  have closer : Lexes (IsToken .closeArray) [']'] rest :=
    lexes_mark (fun _ => rfl) rfl (fun _ => rfl) rfl
  refine ((opener.append inside).append closer).imp ?_
  rintro _ ⟨_, _, ⟨_, body, ⟨start, stop, rfl⟩, rendered, rfl⟩, ⟨last, ending, rfl⟩, rfl⟩
  exact .array rendered

theorem lexes_object
    {members : List (String × Value)} {inner rest : List Char}
    (inside : Lexes (RendersMembers true members) inner ('\x7d' :: rest)) :
    Lexes (Renders (.object members)) (['\x7b'] ++ inner ++ ['\x7d']) rest := by
  have opener : Lexes (IsToken .openObject) ['\x7b'] (inner ++ (['\x7d'] ++ rest)) :=
    lexes_mark (fun _ => rfl) rfl (fun _ => rfl) rfl
  have closer : Lexes (IsToken .closeObject) ['\x7d'] rest :=
    lexes_mark (fun _ => rfl) rfl (fun _ => rfl) rfl
  refine ((opener.append inside).append closer).imp ?_
  rintro _ ⟨_, _, ⟨_, body, ⟨start, stop, rfl⟩, rendered, rfl⟩, ⟨last, ending, rfl⟩, rfl⟩
  exact .object rendered

theorem stopsNumber_printItems
    {rest : List Char} (stops : StopsNumber rest) (items : List Value) (level : Nat) :
    StopsNumber ((Value.printItems level false items).toList ++ rest) := by
  cases items with
  | nil => exact stops
  | cons item items =>
      intro c first
      rw [Value.printItems] at first
      simp only [String.toList_append] at first
      obtain rfl := Option.some.inj first
      rfl

theorem stopsNumber_printMembers
    {rest : List Char} (stops : StopsNumber rest) (members : List (String × Value)) (level : Nat) :
    StopsNumber ((Value.printMembers level false members).toList ++ rest) := by
  cases members with
  | nil => exact stops
  | cons member members =>
      intro c first
      rw [Value.printMembers] at first
      simp only [String.toList_append] at first
      obtain rfl := Option.some.inj first
      rfl

/-! ## Printed values -/

mutual

/-- A printed value is read as its tokens in front of all that cannot be part of a number. -/
theorem lexes_print
    (value : Value) (level : Nat) {rest : List Char} (stops : StopsNumber rest) :
    Lexes (Renders value) (value.print level).toList rest := by
  cases value with
  | null =>
      rw [Value.print]
      exact lexes_null rest
  | number value =>
      rw [Value.print]
      exact lexes_number value stops
  | text value =>
      rw [Value.print]
      refine (lexes_quoted value rest).imp ?_
      rintro _ ⟨start, stop, rfl⟩
      exact .text
  | array items =>
      cases items with
      | nil =>
          rw [Value.print]
          exact lexes_array (Lexes.nil .nil (']' :: rest))
      | cons item items =>
          have inside := lexes_printItems (item :: items) (level + 1) true
            (stopsNumber_newLine level (']' :: rest))
          rw [Value.print, String.toList_append, String.toList_append, String.toList_append,
            List.append_assoc "[".toList]
          · exact lexes_array (inside.append_spaces (isSpace_of_mem_newLine level))
          · exact List.cons_ne_nil item items
  | object members =>
      cases members with
      | nil =>
          rw [Value.print]
          exact lexes_object (Lexes.nil .nil ('\x7d' :: rest))
      | cons member members =>
          have inside := lexes_printMembers (member :: members) (level + 1) true
            (stopsNumber_newLine level ('\x7d' :: rest))
          rw [Value.print, String.toList_append, String.toList_append, String.toList_append,
            List.append_assoc "\x7b".toList]
          · exact lexes_object (inside.append_spaces (isSpace_of_mem_newLine level))
          · exact List.cons_ne_nil member members

theorem lexes_printItems
    (items : List Value) (level : Nat) (first : Bool) {rest : List Char}
    (stops : StopsNumber rest) :
    Lexes (RendersItems first items) (Value.printItems level first items).toList rest := by
  cases items with
  | nil =>
      rw [Value.printItems]
      exact Lexes.nil .nil rest
  | cons item items =>
      have head := lexes_print item level (stopsNumber_printItems stops items level)
      have tail := lexes_printItems items level false stops
      rw [Value.printItems, String.toList_append, String.toList_append]
      refine (((lexes_separator level first _).append head).append tail).imp ?_
      rintro _ ⟨_, back, ⟨separator, front, separated, rendered, rfl⟩, others, rfl⟩
      rw [List.append_assoc]
      exact .cons separated rendered others

theorem lexes_printMembers
    (members : List (String × Value)) (level : Nat) (first : Bool) {rest : List Char}
    (stops : StopsNumber rest) :
    Lexes (RendersMembers first members) (Value.printMembers level first members).toList rest := by
  cases members with
  | nil =>
      rw [Value.printMembers]
      exact Lexes.nil .nil rest
  | cons member members =>
      obtain ⟨key, value⟩ := member
      have head := lexes_print value level (stopsNumber_printMembers stops members level)
      have tail := lexes_printMembers members level false stops
      rw [Value.printMembers, String.toList_append, String.toList_append, String.toList_append,
        String.toList_append]
      refine
        (((((lexes_separator level first _).append (lexes_quoted key _)).append
          (lexes_colon _)).append head).append tail).imp ?_
      rintro _ ⟨_, back, ⟨_, front, ⟨_, _, ⟨separator, _, separated, ⟨start, stop, rfl⟩, rfl⟩,
        ⟨mark, past, rfl⟩, rfl⟩, rendered, rfl⟩, others, rfl⟩
      simp only [List.append_assoc, List.cons_append, List.nil_append]
      exact .cons separated rendered others

end

end Heredoc.Json
