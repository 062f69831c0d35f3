import Heredoc.Proofs.Json.RepeatedKeys

/-!
# What is left of the message for a repeated key

The message of a problem is followed by its location, and the diagnostic shows what stands before
the first ` at line `. A repeated key is part of the message. Main statement: the key is shown whole
exactly if it has no ` at line ` in it, and otherwise up to there (`json_names_repeated_key_iff`).
-/

namespace Heredoc.Text

/-! ## The first occurrence of a text -/

theorem before?_eq_none_iff {needle cs : List Char} :
    before? needle cs = none ↔ ¬ needle <:+: cs := by
  induction cs with
  | nil =>
      rw [before?, List.infix_nil]
      cases needle with
      | nil => simp
      | cons c rest => simp
  | cons c rest inductionHypothesis =>
      rw [before?, List.infix_cons_iff, ← List.isPrefixOf_iff_prefix]
      by_cases here : needle.isPrefixOf (c :: rest) = true
      · simp [here]
      · rw [if_neg here, Option.map_eq_none_iff, inductionHypothesis, or_iff_right here]

section Marked

variable {needle : List Char} {mark : Char} (absent : mark ∉ needle)
include absent

/-- A text without this mark does not reach over one. -/
theorem prefix_append_mark_iff (front back : List Char) :
    needle <+: front ++ mark :: back ↔ needle <+: front := by
  constructor
  · intro starts
    rcases List.prefix_or_prefix_of_prefix starts (List.prefix_append front (mark :: back))
      with shorter | ⟨extra, longer⟩
    · exact shorter
    · cases extra with
      | nil =>
          rw [← longer, List.append_nil]
      | cons c extra =>
          rw [← longer, List.prefix_append_right_inj, List.cons_prefix_cons] at starts
          rw [← longer, ← starts.1] at absent
          exact absurd (List.mem_append_right front List.mem_cons_self) absent
  · intro starts
    exact starts.trans (List.prefix_append front (mark :: back))

/-- It is found before the mark, or else after it. -/
theorem before?_append_mark (nonempty : needle ≠ []) (front back : List Char) :
    before? needle (front ++ mark :: back) =
      (before? needle front).or ((before? needle back).map (front ++ mark :: ·)) := by
  induction front with
  | nil =>
      have notHere : ¬ needle.isPrefixOf (mark :: back) = true := by
        rw [List.isPrefixOf_iff_prefix]
        intro starts
        exact nonempty (List.prefix_nil.mp ((prefix_append_mark_iff absent [] back).mp starts))
      have nothing : before? needle [] = none := if_neg (by rwa [List.isEmpty_iff])
      have later : before? needle (mark :: back) = (before? needle back).map (mark :: ·) :=
        if_neg notHere
      rw [List.nil_append, later, nothing, Option.none_or]
      rfl
  | cons c front inductionHypothesis =>
      have here :
          needle.isPrefixOf (c :: (front ++ mark :: back)) = needle.isPrefixOf (c :: front) := by
        rw [Bool.eq_iff_iff, List.isPrefixOf_iff_prefix, List.isPrefixOf_iff_prefix]
        exact prefix_append_mark_iff absent (c :: front) back
      rw [List.cons_append, before?, before?, here, inductionHypothesis]
      split
      · rfl
      · rw [Option.map_or, Option.map_map]
        rfl

/-- Of a text between two marks the search sees what it would see without them. -/
theorem before?_quoted
    {words : List Char} (nowhere : before? needle words = none)
    (atOnce : before? needle needle = some []) (quoted tail : List Char) :
    before? needle (words ++ mark :: (quoted ++ mark :: (needle ++ tail))) =
      some (words ++ mark :: (before? needle quoted).getD (quoted ++ [mark])) := by
  have nonempty : needle ≠ [] := by
    rintro rfl
    cases words with
    | nil => cases nowhere
    | cons c rest => cases nowhere
  rw [before?_append_mark absent nonempty, nowhere, Option.none_or,
    before?_append_mark absent nonempty, before?_append atOnce]
  cases before? needle quoted with
  | some kept => rfl
  | none => rfl

end Marked

end Heredoc.Text

namespace Heredoc.Json

open Nesting

/-! ## A blank text repeats no key -/

theorem readToken_of_blank
    {c : Char} (blank : Text.isBlank c = true) (index : Nat) (rest : List Char) :
    readToken index c rest = mark .stray index := by
  have other (d : Char) (solid : Text.isBlank d = false) : c ≠ d := by
    intro same
    rw [same, solid] at blank
    cases blank
  have notDigit : ¬ c.isDigit = true := by
    intro digit
    have low : 48 ≤ c.toNat := (Char.isDigit_iff_toNat.mp digit).1
    have high : c.toNat ≤ 57 := (Char.isDigit_iff_toNat.mp digit).2
    simp only [Text.isBlank, Text.blankIntervals, List.any_cons, List.any_nil, Bool.or_eq_true,
      Bool.and_eq_true, decide_eq_true_eq, Bool.false_eq_true, or_false] at blank
    omega
  unfold readToken
  split
  iterate 10 exact absurd rfl (other _ (by decide))
  rw [if_neg]
  rintro (minus | digit)
  · exact other '-' (by decide) minus
  · exact notDigit digit

/-- Of white space alone the check says that a value is missing. -/
theorem isContent_of_blank
    {text : List Char} (blank : ∀ c ∈ text, Text.isBlank c = true)
    {problem : Problem} (found : firstProblem text = some problem) :
    problem.cause.isContent = false := by
  have refused (index : Nat) :
      ∃ cause at_,
        (tokensFrom index text).foldlM Nesting.step Nesting.start = .error ⟨cause, at_⟩ ∧
          cause.isContent = false := by
    clear found
    induction text generalizing index with
    | nil =>
        rw [tokensFrom]
        exact ⟨.endInValue, _, rfl, rfl⟩
    | cons c rest inductionHypothesis =>
        by_cases space : isSpace c = true
        · rw [tokensFrom_space space]
          exact inductionHypothesis (fun d member => blank d (List.mem_cons_of_mem c member)) _
        · rw [tokensFrom, if_neg space, readToken_of_blank (blank c List.mem_cons_self)]
          exact ⟨.expectedValue, _, rfl, rfl⟩
  obtain ⟨cause, at_, run, form⟩ := refused 0
  rw [firstProblem, tokens, run] at found
  cases found
  exact form

/-! ## The message -/

theorem message_repeatedKey (key : String) (index : Nat) (text : List Char) :
    (diagnosticOf text ⟨.content (repeatedKeyMessage key), index⟩).message =
      "duplicate object key `" ++
        match Text.before? " at line ".toList key.toList with
        | some kept => String.ofList kept
        | none => key ++ "`" := by
  have opening : "duplicate object key `".toList = "duplicate object key ".toList ++ ['`'] := by
    decide +kernel
  have closing : "`".toList = ['`'] := by decide +kernel
  have nowhere : Text.before? " at line ".toList "duplicate object key ".toList = none := by
    decide +kernel
  have absent : '`' ∉ " at line ".toList := by decide +kernel
  have atOnce : Text.before? " at line ".toList " at line ".toList = some [] := by decide +kernel
  obtain ⟨tail, located⟩ :
      ∃ tail,
        (Problem.message ⟨.content (repeatedKeyMessage key), index⟩ text).toList =
          (repeatedKeyMessage key).toList ++ (" at line ".toList ++ tail) := by
    simp only [Problem.message, String.toList_append, List.append_assoc]
    exact ⟨_, rfl⟩
  unfold diagnosticOf
  dsimp only
  rw [Text.stripLocation, located]
  unfold repeatedKeyMessage
  -- From here on the literals are only what was said of them.
  generalize "duplicate object key `" = front at *
  generalize "duplicate object key ".toList = words at *
  generalize "`" = quote at *
  generalize " at line ".toList = needle at *
  have found :=
    Text.before?_quoted absent nowhere atOnce key.toList tail
  have written :
      (front ++ key ++ quote).toList ++ (needle ++ tail) =
        words ++ '`' :: (key.toList ++ '`' :: (needle ++ tail)) := by
    simp only [String.toList_append, opening, closing, List.append_assoc, List.cons_append,
      List.nil_append]
  rw [written, found, ← String.toList_inj, String.toList_append, opening]
  cases Text.before? needle key.toList with
  | some kept => simp
  | none => simp [closing]

/-- The one warning for a repeated key names the key, unless the key has the words in it at which
the location is taken to begin; then the rest of the message is lost. -/
theorem json_names_repeated_key_iff
    {body key : String} {index : Nat}
    (found :
      firstProblem body.toList = some ⟨.content (repeatedKeyMessage key), index⟩) :
    ∃ finding,
      Validator.json.run body = .findings [finding] ∧
        finding.severity = .warning ∧
        (finding.message = "duplicate object key `" ++ key ++ "`" ↔
          ¬ " at line ".toList <:+: key.toList) ∧
        ∀ kept,
          Text.before? " at line ".toList key.toList = some kept →
          finding.message = "duplicate object key `" ++ String.ofList kept := by
  obtain ⟨c, member, solid⟩ : ∃ c ∈ body.toList, Text.isBlank c = false := by
    by_contra noSolid
    have blank : ∀ c ∈ body.toList, Text.isBlank c = true := by
      intro c member
      by_contra solid
      exact noSolid ⟨c, member, Bool.eq_false_iff.mpr solid⟩
    cases isContent_of_blank blank found
  have run := json_run_of_problem member solid found
  rw [String.ofList_toList] at run
  have message := message_repeatedKey key index body.toList
  refine ⟨_, run, rfl, ?_, ?_⟩
  · rw [message, ← Text.before?_eq_none_iff]
    cases cut : Text.before? " at line ".toList key.toList with
    | none =>
        refine iff_of_true ?_ rfl
        rw [String.append_assoc]
    | some kept =>
        refine iff_of_false ?_ nofun
        intro same
        have shorter := (Text.before?_prefix cut).length_le
        have lengths := congrArg String.length same
        simp only [String.length_append, String.length_ofList, String.length_toList]
          at lengths shorter
        have quote : "`".length = 1 := rfl
        omega
  · intro kept cut
    rw [message, cut]

/-! ## Every key can be the one to come again -/

theorem exists_firstProblem_of_spellsText
    (body : String) {key : String} {spelled : List Char} (spells : SpellsText key.toList spelled)
    (written :
      body.toList =
        '\x7b' :: ('"' :: spelled ++ ['"'] ++ [':', '1', ',']) ++
          ('"' :: spelled ++ '"' :: ([] ++ [':', '2', '\x7d']))) :
    ∃ index, firstProblem body.toList = some ⟨.content (repeatedKeyMessage key), index⟩ := by
  let members : List (String × Tree) := [(key, .number (.ofNat 1)), (key, .number (.ofNat 2))]
  have inRange : (Tree.object members).InRange := by
    rw [Tree.inRange_object_iff]
    intro name value member
    rcases List.mem_pair.mp member with same | same
    all_goals
      cases same
      exact Tree.inRange_number_iff.mpr (Numeral.inRange_ofNat (by decide))
  have distinct : (Tree.object [(key, .number (.ofNat 1))]).Distinct := by
    rw [Tree.distinct_object_iff]
    refine ⟨List.nodup_singleton key, ?_⟩
    intro name value member
    cases List.mem_singleton.mp member
    exact Tree.distinct_number _
  have repeats :
      (Tree.object members).RepeatsAt
        [.openObject, .text key, .colon, .number (.ofNat 1), .comma] key :=
    .here distinct List.mem_cons_self
  have laid :
      Lays [.openObject, .text key, .colon, .number (.ofNat 1), .comma]
        ('\x7b' :: ('"' :: spelled ++ ['"'] ++ [':', '1', ','])) :=
    (Lays.single .openObject).append
      ((Lays.single (.text spells)).append
        ((Lays.single .colon).append
          ((Lays.single (.number (Numeral.spells_ofNat 1))).append (.single .comma))))
  have shallow : (Tree.object members).depth ≤ depthLimit := by
    change 1 ≤ 127
    decide
  have solid : ∀ c, [':', '2', '\x7d'].head? = some c → isSpace c = false := by
    intro c first
    rw [← Option.some.inj first]
    rfl
  rw [written]
  exact ⟨_, firstProblem_of_repeatsAt repeats inRange shallow laid spells nofun solid⟩

/-- A key that reads like a location is cut short; another one is shown as it is. -/
theorem json_names_repeated_key_iff_located :
    (∃ finding,
      Validator.json.run "\x7b\"a at line 7\":1,\"a at line 7\":2\x7d" = .findings [finding] ∧
        finding.message = "duplicate object key `a") ∧
      ∃ finding,
        Validator.json.run "\x7b\"a at 7\":1,\"a at 7\":2\x7d" = .findings [finding] ∧
          finding.message = "duplicate object key `a at 7`" := by
  have located : SpellsText "a at line 7".toList "a at line 7".toList :=
    spellsText_flatMap_escapeChar "a at line 7".toList
  have plain : SpellsText "a at 7".toList "a at 7".toList :=
    spellsText_flatMap_escapeChar "a at 7".toList
  constructor
  · obtain ⟨index, found⟩ :=
      exists_firstProblem_of_spellsText "\x7b\"a at line 7\":1,\"a at line 7\":2\x7d" located
        (by decide +kernel)
    obtain ⟨finding, run, _, _, cut⟩ := json_names_repeated_key_iff found
    exact ⟨finding, run, cut ['a'] (by decide +kernel)⟩
  · obtain ⟨index, found⟩ :=
      exists_firstProblem_of_spellsText "\x7b\"a at 7\":1,\"a at 7\":2\x7d" plain
        (by decide +kernel)
    obtain ⟨finding, run, _, whole, _⟩ := json_names_repeated_key_iff found
    exact ⟨finding, run, whole.mpr (by decide +kernel)⟩

end Heredoc.Json
