import Heredoc.Marker
import Heredoc.Proofs.Text.Fields
import Mathlib.Data.List.Infix

/-!
# Lines that open and end a heredoc

Tags that are words are told apart by the characters alone: at most one of them fits at a place
(`eq_of_fits`). A start marker in any of its spellings opens the heredoc of its tag
(`start?_written`), and the tag between white space ends it (`isTerminator_written`).
-/

namespace Heredoc.Marker

/-- A tag that is not empty and has word characters only. -/
structure IsWord (tag : String) : Prop where
  ne_nil : tag.toList ≠ []
  wordChars : ∀ c ∈ tag.toList, isWordChar c = true

/-! ## Word characters -/

theorem toNat_of_between
    {c low high : Char} (between : low.val ≤ c.val ∧ c.val ≤ high.val) :
    low.toNat ≤ c.toNat ∧ c.toNat ≤ high.toNat :=
  ⟨UInt32.le_iff_toNat_le.mp between.1, UInt32.le_iff_toNat_le.mp between.2⟩

theorem toNat_of_isWordChar
    {c : Char} (word : isWordChar c = true) :
    (48 ≤ c.toNat ∧ c.toNat ≤ 57) ∨ (65 ≤ c.toNat ∧ c.toNat ≤ 90) ∨ c.toNat = 95 ∨
      (97 ≤ c.toNat ∧ c.toNat ≤ 122) := by
  have classes : ((c.isUpper || c.isLower) || c.isDigit || c == '_') = true := word
  rw [Bool.or_eq_true, Bool.or_eq_true, Bool.or_eq_true, beq_iff_eq] at classes
  rcases classes with ((upper | lower) | digit) | rfl
  · have between : 'A'.val ≤ c.val ∧ c.val ≤ 'Z'.val := of_decide_eq_true upper
    exact .inr (.inl (toNat_of_between between))
  · have between : (decide ('a'.val ≤ c.val) && decide (c.val ≤ 'z'.val)) = true := lower
    rw [Bool.and_eq_true, decide_eq_true_eq, decide_eq_true_eq] at between
    exact .inr (.inr (.inr (toNat_of_between between)))
  · have between : (decide ('0'.val ≤ c.val) && decide (c.val ≤ '9'.val)) = true := digit
    rw [Bool.and_eq_true, decide_eq_true_eq, decide_eq_true_eq] at between
    exact .inl (toNat_of_between between)
  · exact .inr (.inr (.inl rfl))

theorem isBlank_of_isWordChar
    {c : Char} (word : isWordChar c = true) :
    Text.isBlank c = false := by
  have range := toNat_of_isWordChar word
  exact Text.isBlank_of_isPrinted (by omega) (by omega)

/-! ## Which tag fits -/

theorem fits_iff {rest : List Char} {tag : String} :
    fits rest tag = true ↔
      ∃ after, rest = tag.toList ++ after ∧ ∀ c, after.head? = some c → isWordChar c = false := by
  have cut (after : List Char) : (tag.toList ++ after).drop tag.length = after := by
    rw [← String.length_toList, List.drop_left]
  constructor
  · intro fitting
    rw [fits, Bool.and_eq_true, List.isPrefixOf_iff_prefix, Bool.not_eq_true'] at fitting
    obtain ⟨⟨after, rfl⟩, bounded⟩ := fitting
    rw [cut] at bounded
    refine ⟨after, rfl, fun c first => ?_⟩
    rwa [first, Option.any_some] at bounded
  · rintro ⟨after, rfl, bounded⟩
    rw [fits, Bool.and_eq_true, List.isPrefixOf_iff_prefix, cut, Bool.not_eq_true']
    refine ⟨List.prefix_append _ _, ?_⟩
    cases first : after.head? with
    | none => rfl
    | some c => exact bounded c first

/-- A word that fits cannot be longer than another one that does. -/
theorem prefix_of_fits
    {tag other : String} {after more : List Char}
    (words : IsWord tag) (bounded : ∀ c, more.head? = some c → isWordChar c = false)
    (same : tag.toList ++ after = other.toList ++ more) :
    tag.toList <+: other.toList := by
  rcases List.prefix_or_prefix_of_prefix (List.prefix_append tag.toList after)
      (same ▸ List.prefix_append other.toList more) with shorter | ⟨extra, longer⟩
  · exact shorter
  · rw [← longer, List.append_assoc, List.append_cancel_left_eq] at same
    cases extra with
    | nil =>
        rw [List.append_nil] at longer
        rw [longer]
    | cons c others =>
        -- The next character would be a word character of the longer tag.
        have first : more.head? = some c := by
          rw [← same]
          rfl
        have wordChar : isWordChar c = true := words.wordChars c (by rw [← longer]; simp)
        rw [bounded c first] at wordChar
        cases wordChar

theorem eq_of_fits
    {rest : List Char} {tag other : String}
    (words : IsWord tag) (otherWords : IsWord other)
    (fitting : fits rest tag = true) (otherFitting : fits rest other = true) :
    tag = other := by
  obtain ⟨after, rfl, bounded⟩ := fits_iff.mp fitting
  obtain ⟨more, same, otherBounded⟩ := fits_iff.mp otherFitting
  have prefixed := prefix_of_fits words otherBounded same
  have otherPrefixed := prefix_of_fits otherWords bounded same.symm
  exact String.toList_inj.mp
    (prefixed.eq_of_length (Nat.le_antisymm prefixed.length_le otherPrefixed.length_le))

theorem find?_fits
    {tags : List String} {rest : List Char} {tag : String}
    (words : ∀ tag ∈ tags, IsWord tag) (member : tag ∈ tags) (fitting : fits rest tag = true) :
    tags.find? (fits rest) = some tag := by
  cases found : tags.find? (fits rest) with
  | none => exact absurd fitting (List.find?_eq_none.mp found tag member)
  | some other =>
      have otherMember := List.mem_of_find?_eq_some found
      have otherFitting : fits rest other = true := List.find?_some found
      rw [eq_of_fits (words tag member) (words other otherMember) fitting otherFitting]

/-! ## The introducer -/

/-- The signs that may stand between `<<` and the tag. -/
structure IsIntroducer (dash blanks quote : List Char) : Prop where
  dash_eq : dash = [] ∨ dash = ['-']
  blanks_eq : ∀ c ∈ blanks, c = ' ' ∨ c = '\t'
  quote_eq : quote = [] ∨ quote = ['\''] ∨ quote = ['"']

/-- A dash or a blank makes no difference, unless it stands in front of a dash. -/
theorem afterIntroducer_cons
    {mark : Char} {rest : List Char}
    (skipped : mark = '-' ∨ mark = ' ' ∨ mark = '\t') (undashed : rest.head? ≠ some '-') :
    afterIntroducer (mark :: rest) = afterIntroducer rest := by
  cases rest with
  | nil => rcases skipped with rfl | rfl | rfl <;> rfl
  | cons c more =>
      have other : c ≠ '-' := fun same => undashed (same ▸ rfl)
      rcases skipped with rfl | rfl | rfl
      · simp [afterIntroducer, other]
      · simp [afterIntroducer, other]
      · simp [afterIntroducer, other]

namespace IsIntroducer

variable {dash blanks quote rest : List Char} {c : Char}

/-- What follows the dash starts with a blank, a quote or a word. -/
theorem head?_ne
    (introducer : IsIntroducer dash blanks quote) (word : isWordChar c = true)
    {mark : Char} (notBlank : mark ≠ ' ' ∧ mark ≠ '\t') (notQuote : mark ≠ '\'' ∧ mark ≠ '"')
    (notWord : isWordChar mark = false) :
    (blanks ++ (quote ++ c :: rest)).head? ≠ some mark := by
  intro first
  cases blanks with
  | cons blank more =>
      obtain rfl : blank = mark := Option.some.inj first
      rcases introducer.blanks_eq blank List.mem_cons_self with same | same
      · exact notBlank.1 same
      · exact notBlank.2 same
  | nil =>
      rcases introducer.quote_eq with rfl | rfl | rfl
      · obtain rfl : c = mark := Option.some.inj first
        rw [word] at notWord
        cases notWord
      · exact notQuote.1 (Option.some.inj first).symm
      · exact notQuote.2 (Option.some.inj first).symm

theorem afterIntroducer_quote
    (introducer : IsIntroducer dash blanks quote) (word : isWordChar c = true) :
    afterIntroducer (quote ++ c :: rest) = c :: rest := by
  have range := toNat_of_isWordChar word
  have other {mark : Char} (outside : mark.toNat < 48) : c ≠ mark := by
    rintro rfl
    omega
  have dash : c ≠ '-' := other (by decide)
  have space : c ≠ ' ' := other (by decide)
  have tab : c ≠ '\t' := other (by decide)
  have single : c ≠ '\'' := other (by decide)
  have double : c ≠ '"' := other (by decide)
  rcases introducer.quote_eq with rfl | rfl | rfl
  · simp [afterIntroducer, dash, space, tab, single, double]
  · simp [afterIntroducer]
  · simp [afterIntroducer]

theorem afterIntroducer_eq
    (introducer : IsIntroducer dash blanks quote) (word : isWordChar c = true) :
    afterIntroducer (dash ++ (blanks ++ (quote ++ c :: rest))) = c :: rest := by
  have blanksSkipped :
      afterIntroducer (blanks ++ (quote ++ c :: rest)) = c :: rest := by
    have blanksEq := introducer.blanks_eq
    induction blanks with
    | nil => exact introducer.afterIntroducer_quote word
    | cons blank more inductionHypothesis =>
        have moreIntroducer : IsIntroducer dash more quote :=
          ⟨introducer.dash_eq, fun c member => blanksEq c (List.mem_cons_of_mem blank member),
            introducer.quote_eq⟩
        rw [List.cons_append, afterIntroducer_cons (.inr (blanksEq blank List.mem_cons_self))]
        · exact inductionHypothesis moreIntroducer moreIntroducer.blanks_eq
        · exact moreIntroducer.head?_ne word (by decide) (by decide) (by decide)
  rcases introducer.dash_eq with rfl | rfl
  · exact blanksSkipped
  · rw [List.singleton_append, afterIntroducer_cons (.inl rfl), blanksSkipped]
    exact introducer.head?_ne word (by decide) (by decide) (by decide)

theorem head?_ne_less
    (introducer : IsIntroducer dash blanks quote) (word : isWordChar c = true) :
    (dash ++ (blanks ++ (quote ++ c :: rest))).head? ≠ some '<' := by
  rcases introducer.dash_eq with rfl | rfl
  · exact introducer.head?_ne word (by decide) (by decide) (by decide)
  · simp

end IsIntroducer

/-! ## Whole lines -/

/-- In a text without `<<` that does not end in `<` nothing is found, and what follows is not taken
for a part of `<<<`. -/
theorem exists_findStart_append
    {before : List Char}
    (single : ¬ ['<', '<'] <:+: before) (ends : before.getLast? ≠ some '<')
    (tags : List String) (rest : List Char)
    (previous : Option Char) (fresh : before = [] → previous ≠ some '<') :
    ∃ last, last ≠ some '<' ∧
      findStart tags previous (before ++ '<' :: '<' :: rest) =
        findStart tags last ('<' :: '<' :: rest) := by
  induction before generalizing previous with
  | nil => exact ⟨previous, fresh rfl, rfl⟩
  | cons c more inductionHypothesis =>
      have moreSingle : ¬ ['<', '<'] <:+: more :=
        fun inside => single (List.infix_cons_iff.mpr (.inr inside))
      have moreEnds : more.getLast? ≠ some '<' := by
        cases more with
        | nil => simp
        | cons d others => rwa [List.getLast?_cons_cons] at ends
      have moreFresh : more = [] → some c ≠ some '<' := by
        rintro rfl
        exact ends
      have step :
          findStart tags previous (c :: (more ++ '<' :: '<' :: rest)) =
            findStart tags (some c) (more ++ '<' :: '<' :: rest) := by
        cases more with
        | nil =>
            have other : c ≠ '<' := fun same => moreFresh rfl (same ▸ rfl)
            simp [findStart, other]
        | cons d others =>
            have apart : c = '<' → d ≠ '<' := by
              rintro rfl rfl
              exact single (List.IsPrefix.isInfix ⟨others, rfl⟩)
            by_cases less : c = '<'
            · subst less
              simp [findStart, apart rfl]
            · simp [findStart, less]
      obtain ⟨last, free, same⟩ :=
        inductionHypothesis moreSingle moreEnds (some c) moreFresh
      exact ⟨last, free, by rw [List.cons_append, step, same]⟩

theorem start?_written
    {tags : List String} {tag : String} {before dash blanks quote after : List Char}
    (words : ∀ tag ∈ tags, IsWord tag) (member : tag ∈ tags)
    (single : ¬ ['<', '<'] <:+: before) (ends : before.getLast? ≠ some '<')
    (introducer : IsIntroducer dash blanks quote)
    (bounded : ∀ c, after.head? = some c → isWordChar c = false) :
    start? tags
        (String.ofList
          (before ++ '<' :: '<' :: (dash ++ (blanks ++ (quote ++ (tag.toList ++ after)))))) =
      some tag := by
  obtain ⟨nonempty, wordChars⟩ := words tag member
  obtain ⟨c, more, letters⟩ := List.exists_cons_of_ne_nil nonempty
  have word : isWordChar c = true := wordChars c (by rw [letters]; exact List.mem_cons_self)
  have rest : tag.toList ++ after = c :: (more ++ after) := by
    rw [letters, List.cons_append]
  have found :
      tagAfter tags (dash ++ (blanks ++ (quote ++ (tag.toList ++ after)))) = some tag := by
    rw [tagAfter, rest, introducer.afterIntroducer_eq word, ← rest]
    exact find?_fits words member (fits_iff.mpr ⟨after, rfl, bounded⟩)
  have notHereString :
      (dash ++ (blanks ++ (quote ++ (tag.toList ++ after)))).head? ≠ some '<' := by
    rw [rest]
    exact introducer.head?_ne_less word
  obtain ⟨last, free, same⟩ :=
    exists_findStart_append single ends tags
      (dash ++ (blanks ++ (quote ++ (tag.toList ++ after)))) none (fun _ => by simp)
  rw [start?, String.toList_ofList, same, findStart]
  simp only [free, notHereString, or_self, if_false, found]

theorem isTerminator_written
    {tag : String} {left right : List Char}
    (words : IsWord tag)
    (leftBlank : ∀ c ∈ left, Text.isBlank c = true)
    (rightBlank : ∀ c ∈ right, Text.isBlank c = true) :
    isTerminator (String.ofList (left ++ (tag.toList ++ right))) tag = true := by
  rw [isTerminator, String.toList_ofList, Text.trim_between leftBlank rightBlank words.ne_nil
    (fun c member => isBlank_of_isWordChar (words.wordChars c member))]
  exact decide_eq_true rfl

end Heredoc.Marker
