import Heredoc.Proofs.Text.Fields
import Heredoc.Python.Reply

/-!
# Replies of the Python checker, written and read

An error is written with its line and its column, counted from one, in front of its message. The
places that are read from it count from zero and stop one short of the largest number, so that the
character after them can still be named. Main statement: reading gives back what was written, and
of all other lines only `OK` means that there is no error (`replies_read_back`).
-/

namespace Heredoc.Python

/-- The line that reports an error. -/
def Reply.errorLine (line column : Int64) (message : String) : String :=
  "ERROR:" ++ toString line ++ ":" ++ toString column ++ ":" ++ message

/-- A number counted from one as a place counted from zero, between the first place and the last
but one that 32 bits can name. -/
def placeOf (number : Int64) : Int :=
  max 0 (min (number.toInt - 1) 4294967294)

theorem toNat_readPlace_lt (field : List Char) : (readPlace field).toNat < 4294967295 := by
  have size : UInt32.size = 4294967296 := rfl
  rw [readPlace, toNat_clamp32]
  omega

theorem toNat_readPlace (number : Int64) :
    ((readPlace (toString number).toList).toNat : Int) = placeOf number := by
  have size : UInt32.size = 4294967296 := rfl
  have read :
      Text.readInteger? Int64.minValue.toInt Int64.maxValue.toInt
        (Text.trim (toString number).toList) = some number.toInt := by
    have written : toString number = toString number.toInt := rfl
    rw [written, Text.trim_toString_int]
    exact Text.readInteger?_toString number.minValue_le_toInt number.toInt_le
  rw [readPlace, read, toNat_clamp32, Option.getD_some, placeOf]
  omega

theorem toNat_clamp32_succ
    {character : UInt32} (room : character.toNat < 4294967295) :
    (clamp32 (character.toNat + 1)).toNat = character.toNat + 1 := by
  have size : UInt32.size = 4294967296 := rfl
  rw [toNat_clamp32]
  omega

/-- Where there is room for the next character, the range of one character ends after its start. -/
theorem compare_singleChar
    {character : UInt32} (room : character.toNat < 4294967295) (line : UInt32) :
    compare (Range.singleChar line character).start (Range.singleChar line character).stop =
      .lt := by
  have later : character < clamp32 (character.toNat + 1) := by
    rw [UInt32.lt_iff_toNat_lt, toNat_clamp32_succ room]
    exact Nat.lt_succ_self _
  have sameLine : compare line line = .eq := Std.ReflOrd.compare_self
  have before : compare character (clamp32 (character.toNat + 1)) = .lt :=
    Std.compare_eq_lt.mpr later
  calc
    _ = (compare line line).then
          ((compare character (clamp32 (character.toNat + 1))).then .eq) := rfl
    _ = .lt := by rw [sameLine, before]; rfl

theorem isEmpty_singleChar
    {character : UInt32} (room : character.toNat < 4294967295) (line : UInt32) :
    (Range.singleChar line character).isEmpty = false := by
  refine decide_eq_false fun same => ?_
  have sameNumber : character.toNat = (clamp32 (character.toNat + 1)).toNat :=
    congrArg (fun place : Position => place.character.toNat) same
  rw [toNat_clamp32_succ room] at sameNumber
  omega

/-! ## Kinds of lines -/

theorem not_prefix_ok : ¬ "ERROR:".toList <+: "OK".toList := by decide

/-- A line is `OK`, or something else that begins with the word for errors, or neither. -/
theorem Reply.ofLine_cases (text : String) :
    (text = "OK" ∧ Reply.ofLine text = .ok) ∨
      (("ERROR:".toList <+: text.toList) ∧
        ∃ lineField columnField message,
          Reply.ofLine text =
            .error (.error message
              (.singleChar (readPlace lineField) (readPlace columnField)))) ∨
      (text ≠ "OK" ∧ ¬ "ERROR:".toList <+: text.toList ∧ Reply.ofLine text = .unrecognized) := by
  by_cases isOk : text = "OK"
  · exact .inl ⟨isOk, if_pos isOk⟩
  · by_cases front : "ERROR:".toList <+: text.toList
    · refine .inr (.inl ⟨front, ?_⟩)
      rw [Reply.ofLine, if_neg isOk, if_pos (List.isPrefixOf_iff_prefix.mpr front)]
      exact ⟨_, _, _, rfl⟩
    · refine .inr (.inr ⟨isOk, front, ?_⟩)
      rw [Reply.ofLine, if_neg isOk, if_neg (mt List.isPrefixOf_iff_prefix.mp front)]

theorem colon_not_mem (number : Int64) : ':' ∉ (toString number).toList := by
  intro member
  have written : toString number = toString number.toInt := rfl
  rw [written] at member
  rcases Text.eq_minus_or_isDigit_of_mem member with same | digit
  · exact absurd same (by decide)
  · exact absurd digit (by decide)

theorem Reply.ofLine_errorLine (line column : Int64) (message : String) :
    Reply.ofLine (Reply.errorLine line column message) =
      .error (.error (if message = "" then defaultMessage else message)
        (.singleChar (readPlace (toString line).toList) (readPlace (toString column).toList))) := by
  have written :
      (Reply.errorLine line column message).toList =
        "ERROR:".toList ++
          ((toString line).toList ++
            ':' :: ((toString column).toList ++ ':' :: message.toList)) := by
    simp [Reply.errorLine]
  have front : "ERROR:".toList <+: (Reply.errorLine line column message).toList :=
    ⟨_, written.symm⟩
  have notOk : Reply.errorLine line column message ≠ "OK" :=
    fun same => not_prefix_ok (same ▸ front)
  rw [Reply.ofLine, if_neg notOk, if_pos (List.isPrefixOf_iff_prefix.mpr front), written,
    List.drop_left]
  simp only [Text.cutAt_append_cons (colon_not_mem line), Option.getD_some,
    Text.cutAt_append_cons (colon_not_mem column)]
  cases spelled : message.toList with
  | nil =>
      have empty : message = "" := String.toList_inj.mp spelled
      rw [if_pos empty]
  | cons first others =>
      have nonempty : message ≠ "" := by
        intro empty
        rw [empty] at spelled
        cases spelled
      have whole : String.ofList (first :: others) = message := by
        rw [← spelled, String.ofList_toList]
      simp only [if_neg nonempty, whole]

/-! ## Reading what was written -/

/-- An error that was written is read with its message and with a range of one character at its
place, from which the numbers that were written are known again unless they had to be moved. Of
all lines, `OK` alone means that there is no error, and the lines that begin otherwise than an
error mean nothing; what is read as an error always has a range in which something lies. -/
theorem replies_read_back :
    (∀ (line column : Int64) (message : String),
      ∃ atLine atCharacter nextCharacter : UInt32,
        Reply.ofLine (Reply.errorLine line column message) =
            .error (.error (if message = "" then "Invalid Python syntax" else message)
              ⟨⟨atLine, atCharacter⟩, ⟨atLine, nextCharacter⟩⟩) ∧
          (atLine.toNat : Int) = placeOf line ∧
          (atCharacter.toNat : Int) = placeOf column ∧
          nextCharacter.toNat = atCharacter.toNat + 1 ∧
          (1 ≤ line.toInt ∧ line.toInt ≤ 4294967295 → (atLine.toNat : Int) + 1 = line.toInt) ∧
          (1 ≤ column.toInt ∧ column.toInt ≤ 4294967295 →
            (atCharacter.toNat : Int) + 1 = column.toInt)) ∧
      ∀ text : String,
        (Reply.ofLine text = .ok ↔ text = "OK") ∧
          (Reply.ofLine text = .unrecognized ↔
            text ≠ "OK" ∧ ¬ "ERROR:".toList <+: text.toList) ∧
          ∀ finding,
            Reply.ofLine text = .error finding →
              ∃ range,
                finding.range = some range ∧ range.isEmpty = false ∧
                  (compare range.start range.stop).isLE = true := by
  constructor
  · intro line column message
    have atLine := toNat_readPlace line
    have atCharacter := toNat_readPlace column
    have next := toNat_clamp32_succ (toNat_readPlace_lt (toString column).toList)
    refine ⟨readPlace (toString line).toList, readPlace (toString column).toList,
      clamp32 ((readPlace (toString column).toList).toNat + 1),
      Reply.ofLine_errorLine line column message, atLine, atCharacter, next, ?_, ?_⟩
    · intro inside
      rw [atLine, placeOf]
      omega
    · intro inside
      rw [atCharacter, placeOf]
      omega
  · intro text
    rcases Reply.ofLine_cases text with
      ⟨isOk, read⟩ | ⟨front, lineField, columnField, message, read⟩ | ⟨notOk, noFront, read⟩
    · rw [read]
      exact ⟨iff_of_true rfl isOk, iff_of_false nofun fun other => other.1 isOk, nofun⟩
    · have notOk : text ≠ "OK" := fun same => not_prefix_ok (same ▸ front)
      rw [read]
      refine ⟨iff_of_false nofun notOk, iff_of_false nofun fun other => other.2 front, ?_⟩
      intro finding same
      cases same
      have room := toNat_readPlace_lt columnField
      refine ⟨.singleChar (readPlace lineField) (readPlace columnField), rfl, ?_, ?_⟩
      · exact isEmpty_singleChar room _
      rw [compare_singleChar room]
      rfl
    · rw [read]
      exact ⟨iff_of_false nofun notOk, iff_of_true rfl ⟨notOk, noFront⟩, nofun⟩

/-- A message that has a colon and a number in it, at a column that is too large. -/
theorem replies_read_back_colon :
    (1 ≤ (3 : Int64).toInt ∧ (3 : Int64).toInt ≤ 4294967295) ∧
      Reply.ofLine "ERROR:3:4294967300:expected ':'\n 7" =
        .error (.error "expected ':'\n 7" ⟨⟨2, 4294967294⟩, ⟨2, 4294967295⟩⟩) ∧
      ∃ range : Range, some range = some ⟨⟨2, 4294967294⟩, ⟨2, 4294967295⟩⟩ ∧
        range.isEmpty = false ∧ (compare range.start range.stop).isLE = true := by
  have inside : 1 ≤ (3 : Int64).toInt ∧ (3 : Int64).toInt ≤ 4294967295 := by decide
  have written :
      Reply.errorLine 3 4294967300 "expected ':'\n 7" = "ERROR:3:4294967300:expected ':'\n 7" := by
    decide +kernel
  obtain ⟨atLine, atCharacter, next, read, _, column, following, line, _⟩ :=
    replies_read_back.1 3 4294967300 "expected ':'\n 7"
  have lineNumber : atLine.toNat = 2 := by
    have back : (atLine.toNat : Int) + 1 = 3 := line inside
    omega
  have columnNumber : atCharacter.toNat = 4294967294 := by
    have last : placeOf 4294967300 = 4294967294 := by decide
    omega
  have sameLine : atLine = 2 := UInt32.toNat_inj.mp lineNumber
  have sameCharacter : atCharacter = 4294967294 := UInt32.toNat_inj.mp columnNumber
  have sameNext : next = 4294967295 := by
    apply UInt32.toNat_inj.mp
    rw [following, columnNumber]
    rfl
  rw [written, sameLine, sameCharacter, sameNext] at read
  obtain ⟨_, _, ranged⟩ := replies_read_back.2 "ERROR:3:4294967300:expected ':'\n 7"
  obtain ⟨range, found, filled, ordered⟩ := ranged _ read
  exact ⟨inside, read, range, found.symm, filled, ordered⟩

end Heredoc.Python
