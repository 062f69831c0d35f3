import Heredoc.Proofs.Json.Nesting
import Heredoc.Proofs.Json.NumberRange
import Mathlib.Data.List.Nodup

/-!
# Repeated keys are found exactly

A tree in which some object repeats a key has a first such key in the order of the text
(`Tree.distinct_or_repeatsAt`). The check reads everything in front of it, and then stops with that
key (`firstProblem_of_repeatsAt`). Main statement: the validator is silent on a text of a tree
exactly if no object repeats a key, and else it gives one warning (`json_warns_iff_repeated_key`).
-/

namespace Heredoc.Json

open Nesting

/-! ## The first repeated key -/

/-- Reading the tree from its front on, `key` is the first key to come again in its object, and
`front` is what stands before it. -/
inductive Tree.RepeatsAt : Tree → List Symbol → String → Prop where
  | here {earlier later : List (String × Tree)} {key : String} {value : Tree}
      (distinct : (Tree.object earlier).Distinct)
      (again : key ∈ earlier.map Prod.fst) :
      RepeatsAt (.object (earlier ++ (key, value) :: later))
        (.openObject :: (symbolsOfMembers true earlier ++ [.comma])) key
  | item {earlier later : List Tree} {item : Tree} {front : List Symbol} {key : String}
      (distinct : (Tree.array earlier).Distinct)
      (inside : RepeatsAt item front key) :
      RepeatsAt (.array (earlier ++ item :: later))
        (.openArray :: (symbolsOfItems true earlier ++ (separator earlier.isEmpty ++ front))) key
  | member {earlier later : List (String × Tree)} {name : String} {value : Tree}
      {front : List Symbol} {key : String}
      (distinct : (Tree.object earlier).Distinct)
      (fresh : name ∉ earlier.map Prod.fst)
      (inside : RepeatsAt value front key) :
      RepeatsAt (.object (earlier ++ (name, value) :: later))
        (.openObject ::
          (symbolsOfMembers true earlier ++
            (separator earlier.isEmpty ++ [.text name, .colon] ++ front))) key

namespace Tree

mutual

theorem distinct_or_repeatsAt (tree : Tree) :
    tree.Distinct ∨ ∃ front key, tree.RepeatsAt front key := by
  cases tree with
  | null => exact .inl nofun
  | bool value => exact .inl nofun
  | number numeral => exact .inl nofun
  | text value => exact .inl nofun
  | array items => exact distinct_or_repeatsAt_items items [] (distinct_array_iff.mpr nofun)
  | object members =>
      exact distinct_or_repeatsAt_members members []
        (distinct_object_iff.mpr ⟨List.nodup_nil, nofun⟩)

/-- The items are gone through one by one, `earlier` being those already found without fault. -/
theorem distinct_or_repeatsAt_items
    (items earlier : List Tree) (distinct : (Tree.array earlier).Distinct) :
    (Tree.array (earlier ++ items)).Distinct ∨
      ∃ front key, (Tree.array (earlier ++ items)).RepeatsAt front key := by
  cases items with
  | nil =>
      rw [List.append_nil]
      exact .inl distinct
  | cons item items =>
      rcases distinct_or_repeatsAt item with itemDistinct | ⟨front, key, inside⟩
      · have onward := distinct_or_repeatsAt_items items (earlier ++ [item])
        rw [List.append_assoc, List.singleton_append] at onward
        apply onward
        rw [distinct_array_iff] at distinct ⊢
        intro other member
        rcases List.mem_append.mp member with inEarlier | isItem
        · exact distinct other inEarlier
        · rw [List.mem_singleton.mp isItem]
          exact itemDistinct
      · exact .inr ⟨_, key, .item distinct inside⟩

theorem distinct_or_repeatsAt_members
    (members earlier : List (String × Tree)) (distinct : (Tree.object earlier).Distinct) :
    (Tree.object (earlier ++ members)).Distinct ∨
      ∃ front key, (Tree.object (earlier ++ members)).RepeatsAt front key := by
  cases members with
  | nil =>
      rw [List.append_nil]
      exact .inl distinct
  | cons member members =>
      obtain ⟨name, value⟩ := member
      by_cases again : name ∈ earlier.map Prod.fst
      · exact .inr ⟨_, name, .here distinct again⟩
      rcases distinct_or_repeatsAt value with valueDistinct | ⟨front, key, inside⟩
      · have onward := distinct_or_repeatsAt_members members (earlier ++ [(name, value)])
        rw [List.append_assoc, List.singleton_append] at onward
        apply onward
        rw [distinct_object_iff] at distinct ⊢
        refine ⟨?_, ?_⟩
        · rw [List.map_append, List.map_singleton, ← List.concat_eq_append]
          exact List.Nodup.concat again distinct.1
        · intro other otherValue member
          rcases List.mem_append.mp member with inEarlier | isMember
          · exact distinct.2 other otherValue inEarlier
          · cases List.mem_singleton.mp isMember
            exact valueDistinct
      · exact .inr ⟨_, key, .member distinct again inside⟩

end

/-! ## What stands before the repeated key -/

theorem symbolsOfItems_append (first : Bool) (left right : List Tree) :
    symbolsOfItems first (left ++ right) =
      symbolsOfItems first left ++ symbolsOfItems (first && left.isEmpty) right := by
  induction left generalizing first with
  | nil => rw [List.isEmpty_nil, Bool.and_true, symbolsOfItems, List.nil_append, List.nil_append]
  | cons item left inductionHypothesis =>
      rw [List.cons_append, symbolsOfItems, symbolsOfItems, inductionHypothesis, List.isEmpty_cons,
        Bool.and_false, Bool.false_and]
      simp only [List.append_assoc]

theorem symbolsOfMembers_append (first : Bool) (left right : List (String × Tree)) :
    symbolsOfMembers first (left ++ right) =
      symbolsOfMembers first left ++ symbolsOfMembers (first && left.isEmpty) right := by
  induction left generalizing first with
  | nil => rw [List.isEmpty_nil, Bool.and_true, symbolsOfMembers, List.nil_append, List.nil_append]
  | cons member left inductionHypothesis =>
      obtain ⟨key, value⟩ := member
      rw [List.cons_append, symbolsOfMembers, symbolsOfMembers, inductionHypothesis,
        List.isEmpty_cons, Bool.and_false, Bool.false_and]
      simp only [List.append_assoc, List.cons_append]

theorem RepeatsAt.exists_symbols
    {tree : Tree} {front : List Symbol} {key : String} (repeats : tree.RepeatsAt front key) :
    ∃ back, tree.symbols = front ++ .text key :: .colon :: back := by
  induction repeats with
  | @here earlier later key value distinct again =>
      have nonempty : earlier.isEmpty = false := by
        cases earlier with
        | nil => cases again
        | cons member earlier => rfl
      refine ⟨value.symbols ++ symbolsOfMembers false later ++ [.closeObject], ?_⟩
      rw [symbols, symbolsOfMembers_append, symbolsOfMembers, nonempty]
      simp [separator]
  | @item earlier later item front key distinct inside inductionHypothesis =>
      obtain ⟨back, written⟩ := inductionHypothesis
      refine ⟨back ++ symbolsOfItems false later ++ [.closeArray], ?_⟩
      rw [symbols, symbolsOfItems_append, symbolsOfItems, written]
      simp
  | @member earlier later name value front key distinct fresh inside inductionHypothesis =>
      obtain ⟨back, written⟩ := inductionHypothesis
      refine ⟨back ++ symbolsOfMembers false later ++ [.closeObject], ?_⟩
      rw [symbols, symbolsOfMembers_append, symbolsOfMembers, written]
      simp

theorem RepeatsAt.isChain
    {tree : Tree} {front : List Symbol} {key : String} (repeats : tree.RepeatsAt front key) :
    front.IsChain Apart := by
  obtain ⟨back, written⟩ := repeats.exists_symbols
  have chain := tree.isChain_symbols
  rw [written] at chain
  exact chain.left_of_append

/-! ## Reading up to the repeated key -/

theorem depthOfItems_append (left right : List Tree) :
    depthOfItems (left ++ right) = max (depthOfItems left) (depthOfItems right) := by
  induction left with
  | nil => exact (Nat.zero_max _).symm
  | cons item left inductionHypothesis =>
      rw [List.cons_append, depthOfItems, inductionHypothesis, depthOfItems, Nat.max_assoc]

theorem depthOfMembers_append (left right : List (String × Tree)) :
    depthOfMembers (left ++ right) = max (depthOfMembers left) (depthOfMembers right) := by
  induction left with
  | nil => exact (Nat.zero_max _).symm
  | cons member left inductionHypothesis =>
      rw [List.cons_append, depthOfMembers, inductionHypothesis, depthOfMembers, Nat.max_assoc]

theorem runs_earlierItems
    {earlier : List Tree} {expecting : Expecting}
    (accepted : ∀ item ∈ earlier, item.Accepted)
    (frames : List Frame)
    (shallow : frames.length + 1 + depthOfItems earlier ≤ depthLimit)
    (takes : TakesValue expecting) :
    Runs (.openArray :: symbolsOfItems true earlier) ⟨frames, expecting⟩
      ⟨.array :: frames, awaitingItem earlier.isEmpty⟩ := by
  have opened := runs_openArray takes frames (by omega)
  exact opened.append (Tree.runs_items earlier accepted frames shallow true)

theorem runs_earlierMembers
    {earlier : List (String × Tree)} {expecting : Expecting}
    (accepted : ∀ key value, (key, value) ∈ earlier → value.Accepted)
    (distinct : (earlier.map Prod.fst).Nodup)
    (frames : List Frame)
    (shallow : frames.length + 1 + depthOfMembers earlier ≤ depthLimit)
    (takes : TakesValue expecting) :
    Runs (.openObject :: symbolsOfMembers true earlier) ⟨frames, expecting⟩
      ⟨.object (earlier.map Prod.fst).reverse :: frames, awaitingMember earlier.isEmpty⟩ := by
  have opened := runs_openObject takes frames (by omega)
  have unseen : ∀ key ∈ earlier.map Prod.fst, key ∉ [] := fun _ _ => List.not_mem_nil
  have passed := Tree.runs_members earlier accepted distinct [] unseen frames shallow true
  rw [List.append_nil] at passed
  exact opened.append passed

/-- What stands before the repeated key is read, and then a key is due in an object that has it. -/
theorem RepeatsAt.exists_runs
    {tree : Tree} {front : List Symbol} {key : String}
    (repeats : tree.RepeatsAt front key) (inRange : tree.InRange)
    (frames : List Frame) (shallow : frames.length + tree.depth ≤ depthLimit)
    (expecting : Expecting) (takes : TakesValue expecting) :
    ∃ seen outer,
      key ∈ seen ∧ Runs front ⟨frames, expecting⟩ ⟨.object seen :: outer, .key⟩ := by
  induction repeats generalizing frames expecting with
  | @here earlier later key value distinct again =>
      rw [Tree.depth, depthOfMembers_append, depthOfMembers] at shallow
      rw [distinct_object_iff] at distinct
      rw [inRange_object_iff] at inRange
      have accepted (name : String) (value : Tree) (member : (name, value) ∈ earlier) :
          value.Accepted :=
        ⟨distinct.2 name value member, inRange name value (List.mem_append_left _ member)⟩
      have passed := runs_earlierMembers accepted distinct.1 frames (by omega) takes
      have nonempty : earlier.isEmpty = false := by
        cases earlier with
        | nil => cases again
        | cons member earlier => rfl
      rw [nonempty] at passed
      refine ⟨_, frames, List.mem_reverse.mpr again, passed.append (.single ?_)⟩
      intro token reads
      cases reads
      rfl
  | @item earlier later item front key distinct inside inductionHypothesis =>
      rw [Tree.depth, depthOfItems_append, depthOfItems] at shallow
      rw [distinct_array_iff] at distinct
      rw [inRange_array_iff] at inRange
      have accepted (other : Tree) (member : other ∈ earlier) : other.Accepted :=
        ⟨distinct other member, inRange other (List.mem_append_left _ member)⟩
      have passed := runs_earlierItems accepted frames (by omega) takes
      obtain ⟨next, takesNext, separated⟩ := exists_runs_separator earlier.isEmpty frames
      obtain ⟨seen, outer, again, reached⟩ :=
        inductionHypothesis (inRange item (List.mem_append_right _ List.mem_cons_self))
          (.array :: frames) (by rw [List.length_cons]; omega) next takesNext
      exact ⟨seen, outer, again, passed.append (separated.append reached)⟩
  | @member earlier later name value front key distinct fresh inside inductionHypothesis =>
      rw [Tree.depth, depthOfMembers_append, depthOfMembers] at shallow
      rw [distinct_object_iff] at distinct
      rw [inRange_object_iff] at inRange
      have accepted (name : String) (value : Tree) (member : (name, value) ∈ earlier) :
          value.Accepted :=
        ⟨distinct.2 name value member, inRange name value (List.mem_append_left _ member)⟩
      have passed := runs_earlierMembers accepted distinct.1 frames (by omega) takes
      have named := runs_key (mt List.mem_reverse.mp fresh) earlier.isEmpty frames
      obtain ⟨seen, outer, again, reached⟩ :=
        inductionHypothesis (inRange name value (List.mem_append_right _ List.mem_cons_self))
          (.object (name :: (earlier.map Prod.fst).reverse) :: frames)
          (by rw [List.length_cons]; omega) .value .value
      exact ⟨seen, outer, again, passed.append (named.append reached)⟩

end Tree

/-! ## The token after the repeated key -/

/-- The offset at which a repeated key is noticed when `rest` follows at this offset. -/
def noticedAt (index : Nat) (rest : List Char) : Nat :=
  if rest.head? = some '\x7d' then index + 1 else index

theorem noticeIndex_word
    {kind : Kind} (notClose : kind ≠ .closeObject)
    (letters : String) (index : Nat) (rest : List Char) :
    noticeIndex (word kind letters index rest).1 = index := by
  unfold word
  split
  · unfold noticeIndex
    split
    · exact absurd ‹_› notClose
    · rfl
  · rfl

theorem noticeIndex_quotedText (index : Nat) (rest : List Char) :
    noticeIndex (quotedText index rest).1 = index := by
  unfold quotedText
  split
  · rfl
  · split
    all_goals rfl

theorem noticeIndex_readToken (index : Nat) (c : Char) (rest : List Char) :
    noticeIndex (readToken index c rest).1 = noticedAt index (c :: rest) := by
  unfold readToken
  split
  iterate 6 rfl
  iterate 3
    apply noticeIndex_word
    exact nofun
  · exact noticeIndex_quotedText index rest
  · rename_i notClose _ _ _ _ _ _
    have notice : noticedAt index (c :: rest) = index :=
      if_neg fun same => notClose (Option.some.inj same)
    rw [notice]
    split
    · split
      all_goals rfl
    · rfl

theorem exists_tokensFrom_noticeIndex
    {rest : List Char} (solid : ∀ c, rest.head? = some c → isSpace c = false) (index : Nat) :
    ∃ token more,
      tokensFrom index rest = token :: more ∧ noticeIndex token = noticedAt index rest := by
  cases rest with
  | nil =>
      refine ⟨⟨.finished, index, index⟩, [], ?_, rfl⟩
      rw [tokensFrom]
  | cons c rest =>
      have notice := noticeIndex_readToken index c rest
      rw [tokensFrom, if_neg (by rw [solid c rfl]; decide)]
      dsimp only
      split
      · exact ⟨_, _, rfl, notice⟩
      · exact ⟨_, _, rfl, notice⟩

/-- The check stops with the repeated key, at the token that follows it. -/
theorem firstProblem_of_repeatsAt
    {tree : Tree} {front : List Symbol} {key : String} {before spelled gap rest : List Char}
    (repeats : tree.RepeatsAt front key)
    (inRange : tree.InRange)
    (shallow : tree.depth ≤ depthLimit)
    (laid : Lays front before)
    (spells : SpellsText key.toList spelled)
    (spaces : ∀ c ∈ gap, isSpace c = true)
    (solid : ∀ c, rest.head? = some c → isSpace c = false) :
    firstProblem (before ++ ('"' :: spelled ++ '"' :: (gap ++ rest))) =
      some ⟨.content (repeatedKeyMessage key),
        noticedAt (Text.byteLength (before ++ ('"' :: spelled ++ '"' :: gap))) rest⟩ := by
  obtain ⟨seen, outer, again, runs⟩ :=
    repeats.exists_runs inRange [] (by rw [List.length_nil]; omega) .value .value
  have size :
      Text.byteLength before + 1 + Text.byteLength spelled + 1 + Text.byteLength gap =
        Text.byteLength (before ++ ('"' :: spelled ++ '"' :: gap)) := by
    simp only [Text.byteLength_append, Text.byteLength, List.cons_append]
    have quote : '"'.utf8Size = 1 := rfl
    omega
  obtain ⟨token, more, after, notice⟩ :=
    exists_tokensFrom_noticeIndex solid
      (Text.byteLength (before ++ ('"' :: spelled ++ '"' :: gap)))
  have repeated (start stop : Nat) :
      Nesting.step ⟨.object seen :: outer, .key⟩ ⟨.text key, start, stop⟩ =
        .ok ⟨.object seen :: outer, .afterRepeatedKey key⟩ :=
    if_pos again
  have stops : StopsNumber ('"' :: spelled ++ '"' :: (gap ++ rest)) := stopsNumber_cons rfl _
  rw [firstProblem_append laid repeats.isChain stops runs,
    tokensFrom_spelled spells, tokensFrom_spaces spaces, size, after, String.ofList_toList,
    List.foldlM_cons, repeated, ← notice]
  rfl

/-! ## The findings -/

/-- The validator is silent on a text of a tree exactly if no object of the tree repeats a key, and
else it gives one warning. That the numbers are in range is said of their spellings
(`Numeral.InRange`): where the reader of numbers refuses one, it gives an error of its own. -/
theorem json_warns_iff_repeated_key
    {tree : Tree} {text : List Char}
    (shallow : tree.depth ≤ 127)
    (inRange : tree.InRange)
    (laid : Lays tree.symbols text) :
    (Validator.json.run (String.ofList text) = .findings [] ↔ tree.Distinct) ∧
      (¬ tree.Distinct →
        ∃ finding,
          Validator.json.run (String.ofList text) = .findings [finding] ∧
            finding.severity = .warning) := by
  have silent : tree.Distinct → Validator.json.run (String.ofList text) = .findings [] :=
    fun distinct => json_run_of_sound (firstProblem_of_accepted ⟨distinct, inRange⟩ shallow laid)
  have warns :
      ¬ tree.Distinct →
        ∃ finding,
          Validator.json.run (String.ofList text) = .findings [finding] ∧
            finding.severity = .warning := by
    intro repeated
    obtain ⟨front, key, repeats⟩ := tree.distinct_or_repeatsAt.resolve_left repeated
    obtain ⟨back, written⟩ := repeats.exists_symbols
    rw [written] at laid
    obtain ⟨before, _, rfl, laidFront, laidBack⟩ := laid.exists_of_append
    obtain ⟨blank, quoted, _, rfl, blankSpaces, spellsKey, laidColon⟩ := laidBack.exists_of_cons
    obtain ⟨gap, mark, more, rfl, gapSpaces, spellsMark, _⟩ := laidColon.exists_of_cons
    cases spellsMark
    cases spellsKey with
    | @text _ spelled spells =>
        have solid : ∀ c, (':' :: more).head? = some c → isSpace c = false := by
          intro c first
          rw [← Option.some.inj first]
          rfl
        have problem :=
          firstProblem_of_repeatsAt repeats inRange shallow (laidFront.append_spaces blankSpaces)
            spells gapSpaces solid
        have same :
            before ++ (blank ++ ('"' :: spelled ++ ['"'] ++ (gap ++ ([':'] ++ more)))) =
              before ++ blank ++ ('"' :: spelled ++ '"' :: (gap ++ ':' :: more)) := by
          simp only [List.append_assoc, List.cons_append, List.nil_append]
        rw [same]
        refine ⟨_, json_run_of_problem (c := '"') ?_ (by decide) problem, rfl⟩
        simp only [List.mem_append, List.mem_cons, true_or, or_true]
  refine ⟨⟨?_, silent⟩, warns⟩
  intro nothing
  by_contra repeated
  obtain ⟨finding, found, _⟩ := warns repeated
  rw [found] at nothing
  cases nothing

/-! ## An object with the same key twice, and one with the same key deeper -/

def twice : Tree :=
  .object [("a", .number (.ofNat 1)), ("a", .number (.ofNat 2))]

/-- What stands before the second key of `twice`. -/
def twiceFront : List Symbol :=
  [.openObject, .text "a", .colon, .number (.ofNat 1), .comma]

theorem inRange_twice : twice.InRange := by
  rw [twice, Tree.inRange_object_iff]
  intro key value member
  rcases List.mem_pair.mp member with same | same
  all_goals
    cases same
    exact Tree.inRange_number_iff.mpr (Numeral.inRange_ofNat (by decide))

theorem repeatsAt_twice : twice.RepeatsAt twiceFront "a" := by
  have distinct : (Tree.object [("a", .number (.ofNat 1))]).Distinct := by
    rw [Tree.distinct_object_iff]
    refine ⟨by decide, ?_⟩
    intro key value member
    cases List.mem_singleton.mp member
    exact Tree.distinct_number _
  exact .here distinct List.mem_cons_self

theorem spells_a : SpellsText "a".toList ['a'] :=
  spellsText_flatMap_escapeChar ['a']

theorem lays_twiceFront : Lays twiceFront "\x7b\"a\":1,".toList := by
  have key : (Symbol.text "a").Spells ['"', 'a', '"'] := .text spells_a
  have one : (Symbol.number (.ofNat 1)).Spells ['1'] := .number (Numeral.spells_ofNat 1)
  exact (Lays.single .openObject).append
    ((Lays.single key).append
      ((Lays.single .colon).append ((Lays.single one).append (.single .comma))))

/-- The numeral `2.5e200`. -/
def largeNumeral : Numeral where
  negative := false
  whole := ['2']
  isWhole := ⟨List.all_eq_true.mp (by decide), by decide, by decide⟩
  fraction := some ⟨['5'], List.all_eq_true.mp (by decide), by decide⟩
  exponent := some (false, ⟨['2', '0', '0'], List.all_eq_true.mp (by decide), by decide⟩)

theorem spells_largeNumeral : largeNumeral.Spells ['2', '.', '5', 'e', '2', '0', '0'] :=
  .written (.present (.inl rfl) .nothing)

theorem inRange_largeNumeral : largeNumeral.InRange := by
  have digits : largeNumeral.digitsValue = 25 / 10 := by
    have read : Nat.ofDigitChars 10 ['2', '5'] 0 = 25 := by decide
    change (Nat.ofDigitChars 10 ['2', '5'] 0 : ℚ) / 10 ^ 1 = 25 / 10
    rw [read, pow_one]
    rfl
  have exponent : Numeral.exponentValue largeNumeral.exponent = 200 := by decide
  apply Numeral.inRange_of_magnitude_lt
  · intro negative digits shown
    cases shown
    decide
  · rw [Numeral.magnitude, digits, exponent]
    calc
      (25 / 10 : ℚ) * 10 ^ (200 : Int) < 10 ^ 108 * 10 ^ 200 :=
        mul_lt_mul_of_pos_right (by norm_num) (by positivity)
      _ = 10 ^ 308 := (pow_add 10 108 200).symm

/-- The same key in an object and in a value of it. -/
def nested : Tree :=
  .object [("a", .number (.ofNat 1)), ("b", .object [("a", .number largeNumeral)])]

theorem distinct_nested : nested.Distinct := by
  rw [nested, Tree.distinct_object_iff]
  refine ⟨by decide, ?_⟩
  intro key value member
  rcases List.mem_pair.mp member with same | same
  · cases same
    exact Tree.distinct_number _
  · cases same
    rw [Tree.distinct_object_iff]
    refine ⟨by decide, ?_⟩
    intro key value member
    cases List.mem_singleton.mp member
    exact Tree.distinct_number _

theorem inRange_nested : nested.InRange := by
  rw [nested, Tree.inRange_object_iff]
  intro key value member
  rcases List.mem_pair.mp member with same | same
  · cases same
    exact Tree.inRange_number_iff.mpr (Numeral.inRange_ofNat (by decide))
  · cases same
    rw [Tree.inRange_object_iff]
    intro key value member
    cases List.mem_singleton.mp member
    exact Tree.inRange_number_iff.mpr inRange_largeNumeral

theorem lays_nested : Lays nested.symbols "\x7b\"a\":1,\"b\":\x7b\"a\":2.5e200\x7d\x7d".toList := by
  have spellsB : SpellsText "b".toList ['b'] := spellsText_flatMap_escapeChar ['b']
  have outerKey : Lays [.text "b"] ['"', 'b', '"'] := .single (.text spellsB)
  have opened : Lays [.openObject] ['\x7b'] := .single .openObject
  have innerKey : Lays [.text "a"] ['"', 'a', '"'] := .single (.text spells_a)
  have colon : Lays [.colon] [':'] := .single .colon
  have large : Lays [.number largeNumeral] ['2', '.', '5', 'e', '2', '0', '0'] :=
    .single (.number spells_largeNumeral)
  have close : Lays [.closeObject] ['\x7d'] := .single .closeObject
  exact lays_twiceFront.append (outerKey.append (colon.append (opened.append (innerKey.append
    (colon.append (large.append (close.append close)))))))

/-- The same key in an object and in a value of it does not count; the same key in another spelling
does. -/
theorem json_warns_iff_repeated_key_escaped :
    Validator.json.run "\x7b\"a\":1,\"b\":\x7b\"a\":2.5e200\x7d\x7d" = .findings [] ∧
      ∃ finding,
        Validator.json.run "\x7b\"a\":1,\"\\u0061\" :2\x7d" = .findings [finding] ∧
          finding.severity = .warning := by
  refine ⟨?_, ?_⟩
  · exact (json_warns_iff_repeated_key (by decide) inRange_nested lays_nested).1.mpr distinct_nested
  · have unit : Spells 'a' ('\\' :: 'u' :: ['0', '0', '6', '1']) := .unit rfl (by decide)
    have escaped : SpellsText "a".toList "\\u0061".toList := .cons unit .nil
    have space : ∀ c ∈ [' '], isSpace c = true := List.all_eq_true.mp (by decide)
    have again : Lays [.text "a"] "\"\\u0061\" ".toList :=
      (Lays.single (.text escaped)).append_spaces space
    have colon : Lays [.colon] [':'] := .single .colon
    have two : Lays [.number (.ofNat 2)] ['2'] := .single (.number (Numeral.spells_ofNat 2))
    have close : Lays [.closeObject] ['\x7d'] := .single .closeObject
    have laid := lays_twiceFront.append (again.append (colon.append (two.append close)))
    have repeated : ¬ twice.Distinct := by
      intro distinct
      exact absurd (distinct _ .self) (by decide)
    exact (json_warns_iff_repeated_key (by decide) inRange_twice laid).2 repeated

end Heredoc.Json
