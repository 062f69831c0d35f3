import Heredoc.Proofs.Json.Location
import Heredoc.Proofs.Json.RepeatedKeys

/-!
# Where the warning for a repeated key points

A repeated key is noticed only at the token after it, and from there the opening quote is looked for
backwards. Main statement: the quote is found exactly if there is no other quote in the spelling of
the key, and nothing or one blank of the same line between the key and what follows
(`json_marks_repeated_key_iff`).
-/

namespace Heredoc.Json

/-! ## Looking back for a quote -/

/-- What stands before the last quote. -/
def beforeQuote (left : List Char) : List Char :=
  (Text.beforeLast? '"' left).getD left

theorem toOpeningQuote_quote (left right : List Char) :
    toOpeningQuote (left ++ '"' :: right) (Text.byteLength left) =
      Text.byteLength (beforeQuote left) := by
  have shown := Text.charAt?_byteLength_append left ('"' :: right)
  rw [List.head?_cons] at shown
  simp only [toOpeningQuote, shown, ne_eq, not_true_eq_false, false_and, if_false, if_true]
  rw [Text.fitting_byteLength_append, beforeQuote]
  cases Text.beforeLast? '"' left with
  | none => rfl
  | some before => rfl

theorem toOpeningQuote_afterQuote
    {right : List Char} (other : right.head? ≠ some '"') (left : List Char) :
    toOpeningQuote (left ++ '"' :: right) (Text.byteLength left + 1) =
      Text.byteLength (beforeQuote left) := by
  have shown := Text.charAt?_byteLength_append left ('"' :: right)
  have past : Text.charAt? (Text.byteLength left + 1) (left ++ '"' :: right) = right.head? :=
    Text.charAt?_append_add_one rfl left right
  rw [List.head?_cons] at shown
  rw [← toOpeningQuote_quote left right]
  simp only [toOpeningQuote, past, Nat.add_sub_cancel, shown, ne_eq, other, not_false_eq_true,
    gt_iff_lt, Nat.zero_lt_succ, and_self, not_true_eq_false, false_and, if_false, if_true]

theorem ne_quote_of_isSpace {c : Char} (space : isSpace c = true) : c ≠ '"' := by
  rintro rfl
  cases space

theorem toOpeningQuote_afterSpaces
    {blank right : List Char}
    (nonempty : blank ≠ []) (spaces : ∀ c ∈ blank, isSpace c = true)
    (other : right.head? ≠ some '"') (left : List Char) :
    toOpeningQuote (left ++ (blank ++ right)) (Text.byteLength (left ++ blank)) =
      Text.byteLength (left ++ blank) := by
  obtain ⟨init, c, rfl⟩ := (List.eq_nil_or_concat' blank).resolve_left nonempty
  have space := spaces c (List.mem_append_right init List.mem_cons_self)
  have ascii := utf8Size_of_isSpace space
  have shown := Text.charAt?_byteLength_append (left ++ init) (c :: right)
  have past := Text.charAt?_append_add_one ascii (left ++ init) right
  have notShown : ¬ some c = some '"' :=
    fun same => ne_quote_of_isSpace space (Option.some.inj same)
  have joined : left ++ (init ++ [c] ++ right) = left ++ init ++ c :: right := by
    simp only [List.append_assoc, List.cons_append, List.nil_append]
  rw [joined, ← List.append_assoc, Text.byteLength_concat ascii]
  rw [List.head?_cons] at shown
  simp only [toOpeningQuote, past, Nat.add_sub_cancel, shown, notShown, and_false, other, if_false]

theorem exists_beforeQuote (before spelled : List Char) :
    ∃ extra,
      beforeQuote (before ++ '"' :: spelled) = before ++ extra ∧
        extra <+: '"' :: spelled ∧ (extra = [] ↔ '"' ∉ spelled) := by
  cases found : Text.beforeLast? '"' spelled with
  | none =>
      have absent := Text.not_mem_afterLast '"' spelled
      rw [Text.afterLast_of_beforeLast?_eq_none found] at absent
      refine ⟨[], ?_, List.nil_prefix, iff_of_true rfl absent⟩
      rw [beforeQuote, Text.beforeLast?_append_of_not_mem absent, List.append_nil]
      rfl
  | some kept =>
      have whole := Text.eq_append_of_beforeLast? found
      have joined :
          before ++ '"' :: spelled = before ++ '"' :: kept ++ '"' :: Text.afterLast '"' spelled :=
        calc
          before ++ '"' :: spelled = before ++ '"' :: (kept ++ '"' :: Text.afterLast '"' spelled) :=
            congrArg (before ++ '"' :: ·) whole
          _ = before ++ '"' :: kept ++ '"' :: Text.afterLast '"' spelled := by
            rw [List.append_assoc, List.cons_append]
      have inside : '"' ∈ spelled := by
        rw [whole]
        exact List.mem_append_right kept List.mem_cons_self
      refine ⟨'"' :: kept, ?_, ?_, iff_of_false nofun (not_not_intro inside)⟩
      · rw [beforeQuote, joined,
          Text.beforeLast?_append_of_not_mem (Text.not_mem_afterLast '"' spelled)]
        rfl
      · rw [whole]
        exact List.prefix_append ('"' :: kept) _

/-! ## From the token after the key back to the quote -/

/-- The key is followed at once, or after one blank of its line by something else than the bracket
that closes the object. -/
def FollowedAtOnce (gap rest : List Char) : Prop :=
  gap = [] ∨ ∃ blank, gap = [blank] ∧ blank ≠ '\n' ∧ rest.head? ≠ some '\x7d'

theorem moved_of_followedAtOnce
    {gap rest : List Char}
    (atOnce : FollowedAtOnce gap rest)
    (spaces : ∀ c ∈ gap, isSpace c = true)
    (cause : Cause) (left : List Char) :
    toOpeningQuote (left ++ '"' :: (gap ++ rest))
        (reportedOffset (left ++ '"' :: (gap ++ rest))
          ⟨cause, noticedAt (Text.byteLength (left ++ '"' :: gap)) rest⟩) =
      Text.byteLength (beforeQuote left) := by
  have quote : Text.byteLength (left ++ ['"']) = Text.byteLength left + 1 :=
    Text.byteLength_concat rfl left
  rcases atOnce with rfl | ⟨blank, rfl, sameLine, notClosed⟩
  · by_cases closes : rest.head? = some '\x7d'
    · obtain ⟨more, rfl⟩ := List.head?_eq_some_iff.mp closes
      have reported : reportedOffset (left ++ ['"'] ++ '\x7d' :: more) _ = _ :=
        reportedOffset_append rfl (by decide) cause (left ++ ['"']) more
      rw [noticedAt, if_pos closes, List.nil_append]
      rw [List.append_assoc, List.singleton_append] at reported
      rw [reported, quote]
      apply toOpeningQuote_afterQuote
      intro same
      exact absurd (Option.some.inj same) (by decide)
    · have reported : reportedOffset (left ++ '"' :: rest) _ = _ :=
        reportedOffset_append rfl (by decide) cause left rest
      rw [noticedAt, if_neg closes, List.nil_append, quote, reported]
      exact toOpeningQuote_quote left rest
  · have space := spaces blank List.mem_cons_self
    have reported : reportedOffset (left ++ ['"'] ++ blank :: rest) _ = _ :=
      reportedOffset_append (utf8Size_of_isSpace space) sameLine cause (left ++ ['"']) rest
    have index :
        Text.byteLength (left ++ ['"', blank]) = Text.byteLength (left ++ ['"']) + 1 := by
      rw [← Text.byteLength_concat (utf8Size_of_isSpace space), List.append_assoc]
      rfl
    rw [noticedAt, if_neg notClosed, index]
    rw [List.append_assoc, List.singleton_append] at reported
    rw [List.singleton_append, reported, quote]
    apply toOpeningQuote_afterQuote
    intro same
    exact ne_quote_of_isSpace space (Option.some.inj same)

theorem toOpeningQuote_afterKey
    {blank right : List Char}
    (nonempty : blank ≠ []) (spaces : ∀ c ∈ blank, isSpace c = true)
    (other : right.head? ≠ some '"') (left : List Char) :
    toOpeningQuote (left ++ '"' :: (blank ++ right)) (Text.byteLength (left ++ '"' :: blank)) =
      Text.byteLength (left ++ '"' :: blank) := by
  have kept := toOpeningQuote_afterSpaces nonempty spaces other (left ++ ['"'])
  rwa [List.append_assoc, List.append_assoc, List.singleton_append, List.singleton_append] at kept

/-- Noticed and reported at the start of a line, where another text may begin. -/
theorem exists_moved_newline
    {init : List Char} (spaces : ∀ c ∈ init ++ ['\n'], isSpace c = true)
    (cause : Cause) (left rest : List Char) :
    ∃ extra right,
      '"' :: (init ++ ['\n'] ++ rest) = extra ++ right ∧
        toOpeningQuote (left ++ '"' :: (init ++ ['\n'] ++ rest))
            (reportedOffset (left ++ '"' :: (init ++ ['\n'] ++ rest))
              ⟨cause, Text.byteLength (left ++ '"' :: (init ++ ['\n']))⟩) =
          Text.byteLength (left ++ extra) := by
  have size :
      Text.byteLength (left ++ '"' :: (init ++ ['\n'])) =
        Text.byteLength (left ++ '"' :: init) + 1 := by
    rw [← Text.byteLength_concat (c := '\n') rfl, List.append_assoc, List.cons_append]
  have joined :
      left ++ '"' :: (init ++ ['\n'] ++ rest) = left ++ '"' :: init ++ '\n' :: rest := by
    simp only [List.append_assoc, List.cons_append, List.nil_append]
  have reported :
      reportedOffset (left ++ '"' :: (init ++ ['\n'] ++ rest))
          ⟨cause, Text.byteLength (left ++ '"' :: (init ++ ['\n']))⟩ =
        Text.byteLength (left ++ '"' :: (init ++ ['\n'])) := by
    rw [joined, size]
    exact reportedOffset_append_newline cause _ rest
  rw [reported]
  by_cases quote : rest.head? = some '"'
  · obtain ⟨more, rfl⟩ := List.head?_eq_some_iff.mp quote
    have back := toOpeningQuote_quote (left ++ '"' :: (init ++ ['\n'])) more
    have absent : '"' ∉ init ++ ['\n'] := fun member => ne_quote_of_isSpace (spaces _ member) rfl
    rw [beforeQuote, Text.beforeLast?_append_of_not_mem absent, List.append_assoc,
      List.cons_append] at back
    refine ⟨[], _, rfl, ?_⟩
    rw [back, List.append_nil]
    rfl
  · refine ⟨'"' :: (init ++ ['\n']), rest, rfl, ?_⟩
    apply toOpeningQuote_afterKey _ spaces quote
    exact List.append_ne_nil_of_right_ne_nil init (List.cons_ne_nil _ _)

/-- Elsewhere the search ends at the closing quote of the key or after it. -/
theorem exists_moved_of_not_followedAtOnce
    {gap rest : List Char}
    (apart : ¬ FollowedAtOnce gap rest)
    (spaces : ∀ c ∈ gap, isSpace c = true)
    (cause : Cause) (left : List Char) :
    ∃ extra right,
      '"' :: (gap ++ rest) = extra ++ right ∧
        toOpeningQuote (left ++ '"' :: (gap ++ rest))
            (reportedOffset (left ++ '"' :: (gap ++ rest))
              ⟨cause, noticedAt (Text.byteLength (left ++ '"' :: gap)) rest⟩) =
          Text.byteLength (left ++ extra) := by
  have nonempty : gap ≠ [] := fun empty => apart (.inl empty)
  by_cases closes : rest.head? = some '\x7d'
  · -- Noticed past the bracket, reported on it.
    have other : rest.head? ≠ some '"' := by
      rw [closes]
      decide
    refine ⟨'"' :: gap, rest, rfl, ?_⟩
    rw [noticedAt, if_pos closes]
    obtain ⟨more, rfl⟩ := List.head?_eq_some_iff.mp closes
    have reported : reportedOffset (left ++ '"' :: gap ++ '\x7d' :: more) _ = _ :=
      reportedOffset_append rfl (by decide) cause (left ++ '"' :: gap) more
    rw [List.append_assoc, List.cons_append] at reported
    rw [reported]
    exact toOpeningQuote_afterKey nonempty spaces other left
  rw [noticedAt, if_neg closes]
  obtain ⟨init, c, rfl⟩ := (List.eq_nil_or_concat' gap).resolve_left nonempty
  by_cases newline : c = '\n'
  · subst newline
    exact exists_moved_newline spaces cause left rest
  · -- Reported on the last of several blanks.
    have space := spaces c (List.mem_append_right init List.mem_cons_self)
    have ascii := utf8Size_of_isSpace space
    have several : init ≠ [] := by
      rintro rfl
      exact apart (.inr ⟨c, rfl, newline, closes⟩)
    have whole : init ++ [c] ++ rest = init ++ c :: rest := List.append_assoc init [c] rest
    have size :
        Text.byteLength (left ++ '"' :: (init ++ [c])) =
          Text.byteLength (left ++ '"' :: init) + 1 := by
      rw [← Text.byteLength_concat ascii, List.append_assoc, List.cons_append]
    have reported := reportedOffset_append ascii newline cause (left ++ '"' :: init) rest
    rw [List.append_assoc, List.cons_append] at reported
    refine ⟨'"' :: init, c :: rest, congrArg ('"' :: ·) whole, ?_⟩
    rw [whole, size, reported]
    apply toOpeningQuote_afterKey several
    · exact fun d member => spaces d (List.mem_append_left [c] member)
    · intro same
      exact ne_quote_of_isSpace space (Option.some.inj same)

theorem exists_moved
    {gap : List Char} (spaces : ∀ c ∈ gap, isSpace c = true)
    (cause : Cause) (before spelled rest : List Char) :
    ∃ extra right,
      '"' :: spelled ++ '"' :: (gap ++ rest) = extra ++ right ∧
        toOpeningQuote (before ++ ('"' :: spelled ++ '"' :: (gap ++ rest)))
            (reportedOffset (before ++ ('"' :: spelled ++ '"' :: (gap ++ rest)))
              ⟨cause,
                noticedAt (Text.byteLength (before ++ ('"' :: spelled ++ '"' :: gap))) rest⟩) =
          Text.byteLength (before ++ extra) ∧
        (extra = [] ↔ '"' ∉ spelled ∧ FollowedAtOnce gap rest) := by
  rw [← List.append_assoc before, ← List.append_assoc before]
  by_cases atOnce : FollowedAtOnce gap rest
  · have moved := moved_of_followedAtOnce atOnce spaces cause (before ++ '"' :: spelled)
    obtain ⟨extra, back, ⟨more, whole⟩, bare⟩ := exists_beforeQuote before spelled
    refine ⟨extra, more ++ '"' :: (gap ++ rest), ?_, ?_, ?_⟩
    · rw [← whole, List.append_assoc]
    · rw [moved, back]
    · rw [bare]
      exact (and_iff_left atOnce).symm
  · obtain ⟨extra, right, whole, moved⟩ :=
      exists_moved_of_not_followedAtOnce atOnce spaces cause (before ++ '"' :: spelled)
    refine ⟨'"' :: spelled ++ extra, right, ?_, ?_, ?_⟩
    · rw [whole, List.append_assoc]
    · rw [moved, List.append_assoc]
    · exact iff_of_false nofun fun both => atOnce both.2

/-- The one warning for a repeated key marks the opening quote of that key if its spelling has no
quote in it and it is followed at once; and only then, positions being counted in 32 bits. -/
theorem json_marks_repeated_key_iff
    {tree : Tree} {front : List Symbol} {key : String} {before spelled gap rest : List Char}
    (repeats : tree.RepeatsAt front key)
    (inRange : tree.InRange)
    (shallow : tree.depth ≤ 127)
    (laid : Lays front before)
    (spells : SpellsText key.toList spelled)
    (spaces : ∀ c ∈ gap, isSpace c = true)
    (solid : ∀ c, rest.head? = some c → isSpace c = false) :
    let text := before ++ ('"' :: spelled ++ '"' :: (gap ++ rest))
    ∃ finding,
      Validator.json.run (String.ofList text) = .findings [finding] ∧
        finding.severity = .warning ∧
        ('"' ∉ spelled ∧ FollowedAtOnce gap rest →
          finding.range = some (Text.rangeAfter before)) ∧
        (text.length < UInt32.size →
          finding.range = some (Text.rangeAfter before) →
          '"' ∉ spelled ∧ FollowedAtOnce gap rest) := by
  intro text
  have problem := firstProblem_of_repeatsAt repeats inRange shallow laid spells spaces solid
  have quote : '"' ∈ text := List.mem_append_right before List.mem_cons_self
  refine ⟨_, json_run_of_problem quote rfl problem, rfl, ?_⟩
  obtain ⟨extra, right, whole, moved, bare⟩ :=
    exists_moved spaces (.content (Nesting.repeatedKeyMessage key)) before spelled rest
  have joined : text = before ++ extra ++ right := by
    rw [List.append_assoc, ← whole]
  change toOpeningQuote text (reportedOffset text _) = _ at moved
  rw [joined] at moved ⊢
  have range := diagnosticOf_range ⟨.content (Nesting.repeatedKeyMessage key), _⟩ moved
  rw [range, List.append_assoc]
  refine ⟨?_, ?_⟩
  · intro marked
    obtain rfl := bare.mpr marked
    rw [List.nil_append] at whole
    have nothing : right.takeWhile isInlineBlank = [] := by
      rw [← whole]
      rfl
    rw [nothing, List.append_nil, List.append_nil]
  · intro short same
    by_contra unmarked
    have later : extra ++ right.takeWhile isInlineBlank ≠ [] := by
      intro empty
      exact unmarked (bare.mp (List.append_eq_nil_iff.mp empty).1)
    have within : (before ++ (extra ++ right.takeWhile isInlineBlank)).length < UInt32.size := by
      have blanks := (List.takeWhile_prefix (l := right) isInlineBlank).length_le
      simp only [List.length_append] at short ⊢
      omega
    exact Text.placeAfter_append_ne later within
      (Text.rangeAfter_inj.mp (Option.some.inj same))

/-- With one space after the key its quote is marked, with two it is not. -/
theorem json_marks_repeated_key_iff_spaces :
    (∃ finding,
        Validator.json.run "\x7b\"a\":1,\"a\" :2\x7d" = .findings [finding] ∧
          finding.range = some (.singleChar 0 7)) ∧
      ∃ finding,
        Validator.json.run "\x7b\"a\":1,\"a\"  :2\x7d" = .findings [finding] ∧
          finding.range ≠ some (.singleChar 0 7) := by
  have bare : '"' ∉ ['a'] := by decide
  have solid : ∀ c, [':', '2', '\x7d'].head? = some c → isSpace c = false := by
    intro c first
    rw [← Option.some.inj first]
    rfl
  have place : Text.rangeAfter "\x7b\"a\":1,".toList = .singleChar 0 7 := by decide +kernel
  refine ⟨?_, ?_⟩
  · have spaces : ∀ c ∈ [' '], isSpace c = true := List.all_eq_true.mp (by decide)
    have atOnce : FollowedAtOnce [' '] [':', '2', '\x7d'] :=
      .inr ⟨' ', rfl, by decide, by decide⟩
    obtain ⟨finding, found, _, marked, _⟩ :=
      json_marks_repeated_key_iff repeatsAt_twice inRange_twice (by decide) lays_twiceFront spells_a
        spaces solid
    rw [place] at marked
    exact ⟨finding, found, marked ⟨bare, atOnce⟩⟩
  · have spaces : ∀ c ∈ [' ', ' '], isSpace c = true := List.all_eq_true.mp (by decide)
    have apart : ¬ FollowedAtOnce [' ', ' '] [':', '2', '\x7d'] := by
      rintro (empty | ⟨blank, one, _⟩)
      · cases empty
      · cases one
    obtain ⟨finding, found, _, _, only⟩ :=
      json_marks_repeated_key_iff repeatsAt_twice inRange_twice (by decide) lays_twiceFront spells_a
        spaces solid
    rw [place] at only
    exact ⟨finding, found, fun same => apart (only (by decide) same).2⟩

end Heredoc.Json
