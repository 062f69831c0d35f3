import Heredoc.Command.Run
import Heredoc.Diagnostic.Decode
import Heredoc.Proofs.Json.Rendering

/-!
# Reading back what was printed

A decoder reads a value as something (`Decodes`) if it does so on all tokens of the value, whatever
follows them. Records are read field by field (`Fills`), lists item by item. Main statement:
diagnostics, findings and whole reports are read back from what was printed (`reports_read_back`).
-/

namespace Heredoc

namespace Json

variable {α β σ : Type}

/-- The decoder reads the value as this, wherever its tokens stand. -/
def Decodes (decoder : Decoder α) (value : Value) (meant : α) : Prop :=
  ∀ front rest, Renders value front → decoder (front ++ rest) = .ok (meant, rest)

theorem Decodes.decode_print
    {decoder : Decoder α} {value : Value} {meant : α}
    (decodes : Decodes decoder value meant)
    (level : Nat) (blank : String)
    (spaces : ∀ c ∈ blank.toList, isSpace c = true) :
    decode decoder (value.print level ++ blank) = .ok meant := by
  have stops : StopsNumber blank.toList :=
    fun c first => continuesNumber_of_isSpace (spaces c (List.mem_of_head? first))
  obtain ⟨front, rendered, read⟩ := lexes_print value level stops 0
  have ended (index : Nat) : ∃ stop, tokensFrom index blank.toList = [⟨.finished, stop, stop⟩] := by
    have skipped := tokensFrom_spaces spaces index []
    rw [List.append_nil, tokensFrom] at skipped
    exact ⟨_, skipped⟩
  obtain ⟨stop, finished⟩ := ended (0 + Text.byteLength (value.print level).toList)
  rw [decode, tokens, String.toList_append, read, finished, decodes front _ rendered]
  rfl

/-! ## Simple values -/

theorem decodes_text (value : String) : Decodes text (.text value) value := by
  intro front rest rendered
  cases rendered
  rfl

theorem decodes_word32 (value : UInt32) : Decodes word32 (.number value.toNat) value := by
  intro front rest rendered
  cases rendered with
  | @number _ ending start stop =>
      have small : value.toNat < UInt32.size := value.toNat_lt
      have known := value_toDigits (Nat.lt_trans small (by decide)) ending
      have inside : (0 : Int) ≤ (value.toNat : Int) ∧ (value.toNat : Int) < (UInt32.size : Int) :=
        ⟨Int.natCast_nonneg _, Int.ofNat_lt.mpr small⟩
      rw [word32, natural, List.singleton_append]
      simp only [next, known, if_pos inside, Int.toNat_natCast]
      rw [Except.map, Nat.toUInt32_eq, UInt32.ofNat_toNat]

theorem decodes_optional_null (decoder : Decoder α) : Decodes (optional decoder) .null none := by
  intro front rest rendered
  cases rendered
  rfl

theorem Decodes.optional
    {decoder : Decoder α} {value : Value} {meant : α}
    (decodes : Decodes decoder value meant)
    (present : value ≠ .null) :
    Decodes (optional decoder) value (some meant) := by
  intro front rest rendered
  have read := decodes front rest rendered
  cases rendered with
  | null => exact absurd rfl present
  | number | text | array | object =>
      rw [Json.optional, read]
      rfl

theorem decodes_choice
    {ofName? : String → Option α} {name : String} {meant : α}
    (named : ofName? name = some meant)
    (names : List String) :
    Decodes (choice ofName? names) (.text name) meant := by
  intro front rest rendered
  cases rendered with
  | @text _ start stop =>
      rw [choice, List.singleton_append]
      simp only [next, choiceName, named]

/-! ## Lists -/

/-- Reads the items of an array; at most `limit` of them. -/
def items (decode : Decoder α) : Nat → Bool → Decoder (List α)
  | 0, _, tokens => .ok ([], tokens)
  | limit + 1, first, tokens => do
      match ← nextItem first tokens with
      | none => return ([], tokens)
      | some rest =>
          let (value, rest) ← decode rest
          let (values, rest) ← items decode limit false rest
          return (value :: values, rest)

/-- Reads an array. -/
def list (decode : Decoder α) : Decoder (List α) := fun tokens => do
  let (token, rest) := next tokens
  match token.kind with
  | .openArray =>
      let (values, rest) ← items decode tokens.length true rest
      return (values, ← endArray rest)
  | _ => wrongType token "a sequence"

theorem Renders.length_pos {value : Value} {front : List Token} (rendered : Renders value front) :
    0 < front.length := by
  cases rendered
  all_goals exact Nat.succ_pos _

theorem nextItem_rendered
    {first : Bool} {item : Value} {separator front : List Token}
    (separated : Separates first separator)
    (rendered : Renders item front)
    (rest : List Token) :
    nextItem first (separator ++ (front ++ rest)) = .ok (some (front ++ rest)) := by
  -- No value starts with a comma or a closing bracket.
  cases separated with
  | first =>
      cases rendered
      all_goals rfl
  | comma =>
      cases rendered
      all_goals rfl

theorem RendersItems.length_le
    {first : Bool} {items : List Value} {front : List Token}
    (rendered : RendersItems first items front) : items.length ≤ front.length := by
  induction items generalizing first front with
  | nil => exact Nat.zero_le front.length
  | cons item items inductionHypothesis =>
      cases rendered with
      | cons separated head tail =>
          have filled := head.length_pos
          have shorter := inductionHypothesis tail
          simp only [List.length_append, List.length_cons]
          omega

theorem items_rendered
    {decoder : Decoder α} {encode : α → Value}
    (decodes : ∀ value, Decodes decoder (encode value) value)
    (values : List α) {first : Bool} {front : List Token} {limit : Nat}
    (rendered : RendersItems first (values.map encode) front)
    (enough : values.length ≤ limit)
    (closer : Token) (closes : closer.kind = .closeArray) (rest : List Token) :
    items decoder limit first (front ++ closer :: rest) = .ok (values, closer :: rest) := by
  induction values generalizing first front limit with
  | nil =>
      cases rendered
      cases limit with
      | zero => rfl
      | succ limit =>
          rw [List.nil_append, items, nextItem]
          simp only [next, closes]
          rfl
  | cons value values inductionHypothesis =>
      cases limit with
      | zero => cases enough
      | succ limit =>
          cases rendered with
          | @cons _ _ _ separator front back separated head tail =>
              have later := inductionHypothesis tail (Nat.le_of_succ_le_succ enough)
              rw [List.append_assoc, List.append_assoc, items, nextItem_rendered separated head]
              simp only [bind, Except.bind, decodes value front _ head, later]
              rfl

theorem decodes_list
    {decoder : Decoder α} {encode : α → Value}
    (decodes : ∀ value, Decodes decoder (encode value) value)
    (values : List α) :
    Decodes (list decoder) (.array (values.map encode)) values := by
  intro front rest rendered
  cases rendered with
  | @array _ inner start stop last ending inside =>
      have enough : values.length ≤ (inner ++ ⟨.closeArray, last, ending⟩ :: rest).length + 1 := by
        have counted := inside.length_le
        rw [List.length_map] at counted
        rw [List.length_append]
        omega
      have read := items_rendered decodes values inside enough ⟨.closeArray, last, ending⟩ rfl rest
      rw [List.cons_append, List.append_assoc, List.singleton_append, list]
      simp only [next, List.length_cons, read, bind, Except.bind]
      rfl

/-! ## Records -/

/-- Reading the members one by one takes the state to the final one. -/
inductive Fills (record : Record σ α) : σ → List (String × Value) → σ → Prop where
  | nil {state : σ} : Fills record state [] state
  | cons {field : Field σ} {key : String} {value : Value} {members : List (String × Value)}
      {state later final : σ}
      (known : record.fields.find? (·.name = key) = some field)
      (unset : field.isSet state = false)
      (reads : Decodes (field.read state) value later)
      (others : Fills record later members final) :
      Fills record state ((key, value) :: members) final

theorem Fills.slot
    {record : Record σ α} {name key : String} {get : σ → Option β} {set : σ → β → σ}
    {decoder : Decoder β} {value : Value} {meant : β} {members : List (String × Value)}
    {state final : σ}
    (known : record.fields.find? (·.name = key) = some (.slot name get set decoder))
    (unset : get state = none)
    (decodes : Decodes decoder value meant)
    (others : Fills record (set state meant) members final) :
    Fills record state ((key, value) :: members) final := by
  refine .cons known ?_ ?_ others
  · exact Option.isSome_eq_false_iff.mpr (Option.isNone_iff_eq_none.mpr unset)
  · intro front rest rendered
    rw [Field.slot]
    simp only [decodes front rest rendered]
    rfl

theorem nextKey_rendered
    {first : Bool} {separator : List Token}
    (separated : Separates first separator)
    (key : String) (start stop : Nat) (rest : List Token) :
    nextKey first (separator ++ (⟨.text key, start, stop⟩ :: rest)) = .ok (some (key, rest)) := by
  cases separated
  all_goals rfl

theorem RendersMembers.length_le
    {first : Bool} {members : List (String × Value)} {front : List Token}
    (rendered : RendersMembers first members front) : members.length ≤ front.length := by
  induction members generalizing first front with
  | nil => exact Nat.zero_le front.length
  | cons member members inductionHypothesis =>
      cases rendered with
      | cons separated head tail =>
          have shorter := inductionHypothesis tail
          simp only [List.length_append, List.length_cons]
          omega

theorem readMembers_rendered
    {record : Record σ α} {members : List (String × Value)} {state final : σ}
    (fills : Fills record state members final)
    {first : Bool} {front : List Token} {limit : Nat}
    (rendered : RendersMembers first members front)
    (enough : members.length ≤ limit)
    (closer : Token) (closes : closer.kind = .closeObject) (rest : List Token) :
    record.readMembers limit first state (front ++ closer :: rest) =
      .ok (final, closer :: rest) := by
  -- Each member takes one from the limit, which is the number of all tokens and so never runs out.
  induction fills generalizing first front limit with
  | nil =>
      cases rendered
      cases limit with
      | zero => rfl
      | succ limit =>
          rw [List.nil_append, Record.readMembers, nextKey]
          simp only [next, closes]
          rfl
  | @cons field key value members state later final known unset reads others
      inductionHypothesis =>
      cases limit with
      | zero => cases enough
      | succ limit =>
          cases rendered with
          | @cons _ _ _ _ separator front back start stop mark past separated head tail =>
              have onward := inductionHypothesis tail (Nat.le_of_succ_le_succ enough)
              have here := reads front (back ++ closer :: rest) head
              rw [List.append_assoc, List.cons_append, List.cons_append, List.append_assoc,
                Record.readMembers, nextKey_rendered separated]
              simp only [bind, Except.bind, known, unset, colon, next, here, onward,
                Bool.false_eq_true, if_false]

theorem decodes_record
    {record : Record σ α} {members : List (String × Value)} {final : σ} {meant : α}
    (fills : Fills record record.start members final)
    (finished : record.finish final = .ok meant) :
    Decodes record.read (.object members) meant := by
  intro front rest rendered
  cases rendered with
  | @object _ inner start stop last ending inside =>
      have enough :
          members.length ≤ (inner ++ ⟨.closeObject, last, ending⟩ :: rest).length + 1 := by
        have counted := inside.length_le
        rw [List.length_append]
        omega
      have read := readMembers_rendered fills inside enough ⟨.closeObject, last, ending⟩ rfl rest
      rw [List.cons_append, List.append_assoc, List.singleton_append, Record.read]
      simp only [next, List.length_cons, read, bind, Except.bind, Record.conclude, finished]
      rfl

/-! ## Where the parts of a value stand -/

theorem infix_printItems
    {item : Value} {items : List Value} (member : item ∈ items) (level : Nat) (first : Bool) :
    (item.print level).toList <:+: (Value.printItems level first items).toList := by
  induction items generalizing first with
  | nil => cases member
  | cons head items inductionHypothesis =>
      rw [Value.printItems, String.toList_append, String.toList_append]
      rcases List.mem_cons.mp member with rfl | later
      · exact List.infix_append _ _ _
      · exact (inductionHypothesis later false).trans (List.suffix_append _ _).isInfix

theorem infix_printMembers
    {key : String} {value : Value} {members : List (String × Value)}
    (member : (key, value) ∈ members) (level : Nat) (first : Bool) :
    (value.print level).toList <:+: (Value.printMembers level first members).toList := by
  induction members generalizing first with
  | nil => cases member
  | cons head members inductionHypothesis =>
      obtain ⟨headKey, headValue⟩ := head
      rw [Value.printMembers, String.toList_append, String.toList_append]
      rcases List.mem_cons.mp member with same | later
      · obtain ⟨rfl, rfl⟩ := Prod.mk.inj same
        exact List.infix_append _ _ _
      · exact (inductionHypothesis later false).trans (List.suffix_append _ _).isInfix

theorem infix_print_array
    {item : Value} {items : List Value} (member : item ∈ items) (level : Nat) :
    (item.print (level + 1)).toList <:+: ((Value.array items).print level).toList := by
  rw [Value.print, String.toList_append, String.toList_append, String.toList_append,
    List.append_assoc]
  · exact (infix_printItems member (level + 1) true).trans (List.infix_append _ _ _)
  · exact List.ne_nil_of_mem member

theorem infix_print_object
    {key : String} {value : Value} {members : List (String × Value)}
    (member : (key, value) ∈ members) (level : Nat) :
    (value.print (level + 1)).toList <:+: ((Value.object members).print level).toList := by
  rw [Value.print, String.toList_append, String.toList_append, String.toList_append,
    List.append_assoc]
  · exact (infix_printMembers member (level + 1) true).trans (List.infix_append _ _ _)
  · exact List.ne_nil_of_mem member

end Json

/-! ## Diagnostics -/

theorem Position.decodes_toJson (position : Position) :
    Json.Decodes record.read position.toJson position :=
  Json.decodes_record
    (.slot rfl rfl (Json.decodes_word32 position.line)
      (.slot rfl rfl (Json.decodes_word32 position.character) .nil))
    rfl

theorem Range.decodes_toJson (range : Range) :
    Json.Decodes record.read range.toJson range :=
  Json.decodes_record
    (.slot rfl rfl range.start.decodes_toJson (.slot rfl rfl range.stop.decodes_toJson .nil))
    rfl

theorem Severity.decodes_name (severity : Severity) :
    Json.Decodes read (.text severity.name) severity :=
  Json.decodes_choice (by cases severity <;> rfl) _

theorem Code.decodes_name (code : Code) :
    Json.Decodes read (.text code.name) code :=
  Json.decodes_choice (by cases code <;> rfl) _

theorem Diagnostic.decodes_toJson (diagnostic : Diagnostic) :
    Json.Decodes record.read diagnostic.toJson diagnostic :=
  Json.decodes_record
    (.slot rfl rfl (Json.decodes_text diagnostic.message)
      (.slot rfl rfl diagnostic.severity.decodes_name
        (.slot rfl rfl diagnostic.range.decodes_toJson
          (.slot rfl rfl (Json.decodes_text diagnostic.source)
            (.slot rfl rfl diagnostic.code.decodes_name .nil)))))
    rfl

theorem LocalDiagnostic.decodes_toJson (finding : LocalDiagnostic) :
    Json.Decodes record.read finding.toJson finding := by
  have range :
      Json.Decodes (Json.optional Range.record.read)
        ((finding.range.map Range.toJson).getD .null) finding.range := by
    cases finding.range with
    | none => exact Json.decodes_optional_null Range.record.read
    | some range => exact range.decodes_toJson.optional nofun
  exact Json.decodes_record
    (.slot rfl rfl (Json.decodes_text finding.message)
      (.slot rfl rfl finding.severity.decodes_name (.slot rfl rfl range .nil)))
    rfl

/-! ## Reports -/

namespace FileReport

/-- The fields of a report as far as they were read. -/
structure Draft where
  path : Option String := none
  diagnostics : Option (List Diagnostic) := none

/-- How the report on a file is read by those who get it. -/
def record : Json.Record Draft FileReport where
  name := "FileReport"
  fields :=
    [.slot "path" (·.path) (fun draft value => { draft with path := some value }) Json.text,
     .slot "diagnostics" (·.diagnostics)
       (fun draft value => { draft with diagnostics := some value })
       (Json.list Diagnostic.record.read)]
  start := {}
  closed := false
  mayBeShort := false
  finish draft := do
    return ⟨← Json.required "path" draft.path, ← Json.required "diagnostics" draft.diagnostics⟩

theorem decodes_toJson (report : FileReport) :
    Json.Decodes record.read report.toJson report :=
  Json.decodes_record
    (.slot rfl rfl (Json.decodes_text report.path)
      (.slot rfl rfl (Json.decodes_list Diagnostic.decodes_toJson report.diagnostics) .nil))
    rfl

end FileReport

theorem infix_print_json
    {reports : List FileReport} {report : FileReport} {diagnostic : Diagnostic}
    (reported : report ∈ reports)
    (listed : diagnostic ∈ report.diagnostics) :
    (diagnostic.toJson.print 3).toList <:+: (Format.print reports .json).toList := by
  have inList :
      (diagnostic.toJson.print 3).toList <:+:
        ((Json.Value.array (report.diagnostics.map Diagnostic.toJson)).print 2).toList :=
    Json.infix_print_array (List.mem_map_of_mem listed) 2
  have inReport :
      ((Json.Value.array (report.diagnostics.map Diagnostic.toJson)).print 2).toList <:+:
        (report.toJson.print 1).toList :=
    Json.infix_print_object (List.mem_cons_of_mem _ List.mem_cons_self) 1
  have inReports :
      (report.toJson.print 1).toList <:+:
        ((Json.Value.array (reports.map FileReport.toJson)).print 0).toList :=
    Json.infix_print_array (List.mem_map_of_mem reported) 0
  rw [Format.print, String.toList_append]
  exact ((inList.trans inReport).trans inReports).trans (List.prefix_append _ _).isInfix

/-- What a check prints as JSON can be read back. A diagnostic or a finding is read back from its
object at any level of indentation, a missing range being `null`; the object of each diagnostic
stands in the printed reports; and reading all that is printed gives the reports themselves. -/
theorem reports_read_back :
    (∀ (level : Nat) (diagnostic : Diagnostic),
        Diagnostic.ofJson (diagnostic.toJson.print level) = .ok diagnostic) ∧
      (∀ (level : Nat) (finding : LocalDiagnostic),
        LocalDiagnostic.ofJson (finding.toJson.print level) = .ok finding) ∧
        (∀ (message : String) (severity : Severity),
          LocalDiagnostic.toJson ⟨message, severity, none⟩ =
            .object
              [("message", .text message), ("severity", .text severity.name), ("range", .null)]) ∧
          (∀ (reports : List FileReport), ∀ report ∈ reports, ∀ diagnostic ∈ report.diagnostics,
            (diagnostic.toJson.print 3).toList <:+: (Format.print reports .json).toList) ∧
            ∀ reports : List FileReport,
              Json.decode (Json.list FileReport.record.read) (Format.print reports .json) =
                .ok reports := by
  refine ⟨?_, ?_, fun _ _ => rfl, fun _ _ reported _ => infix_print_json reported, ?_⟩
  · intro level diagnostic
    have read := diagnostic.decodes_toJson.decode_print level "" nofun
    rwa [String.append_empty] at read
  · intro level finding
    have read := finding.decodes_toJson.decode_print level "" nofun
    rwa [String.append_empty] at read
  · intro reports
    have decodes := Json.decodes_list FileReport.decodes_toJson reports
    refine decodes.decode_print 0 "\n" ?_
    intro c member
    rw [List.mem_singleton.mp member]
    rfl

end Heredoc
