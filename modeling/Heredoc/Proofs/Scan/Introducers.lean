import Heredoc.Proofs.Scan.Marker
import Heredoc.Proofs.Text.Slices

/-!
# Introducers in the bytes of a line

Where `<<` introduces a tag, where the tag has to stand then and what may follow it, said of byte
offsets. Main statements: an introducer is a place between two characters (`introduces_iff`), the
line can be cut where the tag has to stand (`exists_cut?_tagOffset`), and a tag fits there if and
only if it fits after the introducer (`fitsAt_iff`). Of what a line opens this makes a statement on
characters: `findStart` finds the tag after the first introducer that has one
(`exists_of_findStart_eq_some`).
-/

namespace Heredoc

namespace Marker

open Text (bytes byte byteLength)

/-! ## The grammar -/

/-- Whether a byte is an ASCII letter, a digit or the underscore. -/
def isWordByte : UInt8 → Bool :=
  Text.byteIn isWordChar

def isBlankByte : UInt8 → Bool :=
  Text.byteIn fun c => c == ' ' || c == '\t'

/-- `<<` stands at this offset and is no part of `<<<`. -/
structure Introduces (written : List UInt8) (offset : Nat) : Prop where
  first : written[offset]? = some (byte '<')
  second : written[offset + 1]? = some (byte '<')
  before : offset = 0 ∨ written[offset - 1]? ≠ some (byte '<')
  after : written[offset + 2]? ≠ some (byte '<')

/-- The number of bytes between `<<` and the tag: one dash, all blanks and one quote, as far as they
are there. -/
def introducerLength (rest : List UInt8) : Nat :=
  let dash := if rest.head? = some (byte '-') then 1 else 0
  let blanks := ((rest.drop dash).takeWhile isBlankByte).length
  let next := (rest.drop (dash + blanks)).head?
  let quote := if next = some (byte '\'') ∨ next = some (byte '"') then 1 else 0
  dash + blanks + quote

/-- Where the tag stands that is introduced at this offset. -/
def tagOffset (written : List UInt8) (offset : Nat) : Nat :=
  offset + 2 + introducerLength (written.drop (offset + 2))

/-- The tag stands where it has to, and no word byte follows it. -/
structure FitsAt (written : List UInt8) (offset : Nat) (tag : String) : Prop where
  stands : bytes tag.toList <+: written.drop (tagOffset written offset)
  bounded :
    ∀ b,
      written[tagOffset written offset + (bytes tag.toList).length]? = some b →
        isWordByte b = false

/-! ## Introducers between characters -/

/-- Between these two parts of a text `<<` is no part of `<<<`. -/
structure Apart (previous : Option Char) (left right : List Char) : Prop where
  before : left.getLast?.or previous ≠ some '<'
  after : right.head? ≠ some '<'

theorem getLast?_cons_or (previous : Option Char) (c : Char) (left : List Char) :
    (c :: left).getLast?.or previous = left.getLast?.or (some c) := by
  rcases List.eq_nil_or_concat' left with rfl | ⟨front, d, rfl⟩
  · rfl
  · rw [← List.cons_append, List.getLast?_concat, List.getLast?_concat]
    rfl

theorem Apart.cons_iff {previous : Option Char} {c : Char} {left right : List Char} :
    Apart previous (c :: left) right ↔ Apart (some c) left right := by
  have same := getLast?_cons_or previous c left
  constructor
  · rintro ⟨before, after⟩
    exact ⟨same ▸ before, after⟩
  · rintro ⟨before, after⟩
    exact ⟨same.symm ▸ before, after⟩

/-- The tag that is found at the front of a text. -/
def tagHere (tags : List String) (previous : Option Char) : List Char → Option String
  | '<' :: '<' :: rest =>
      if previous = some '<' ∨ rest.head? = some '<' then none else tagAfter tags rest
  | _ => none

theorem tagHere_of_apart
    {previous : Option Char} {right : List Char}
    (apart : Apart previous [] right) (tags : List String) :
    tagHere tags previous ('<' :: '<' :: right) = tagAfter tags right := by
  rw [tagHere, if_neg]
  rintro (same | same)
  · exact apart.before same
  · exact apart.after same

theorem tagHere_of_ne
    {c : Char} {rest : List Char} (single : ¬ (c = '<' ∧ rest.head? = some '<'))
    (tags : List String) (previous : Option Char) :
    tagHere tags previous (c :: rest) = none := by
  unfold tagHere
  split
  · rename_i right same
    cases same
    exact absurd ⟨rfl, rfl⟩ single
  · rfl

theorem single_of_not_isPrefixOf
    {c : Char} {rest : List Char} (other : ¬ ['<', '<'].isPrefixOf (c :: rest) = true) :
    ¬ (c = '<' ∧ rest.head? = some '<') := by
  rintro ⟨rfl, next⟩
  obtain ⟨right, rfl⟩ := List.head?_eq_some_iff.mp next
  exact other rfl

theorem apart_of_tagHere
    {tags : List String} {previous : Option Char} {cs : List Char} {tag : String}
    (found : tagHere tags previous cs = some tag) :
    ∃ right,
      cs = '<' :: '<' :: right ∧ Apart previous [] right ∧ tagAfter tags right = some tag := by
  unfold tagHere at found
  split at found
  · rename_i right
    split at found
    · cases found
    · rename_i free
      rw [not_or] at free
      exact ⟨right, rfl, ⟨free.1, free.2⟩, found⟩
  · cases found

theorem findStart_cons
    (tags : List String) (previous : Option Char) (c : Char) (rest : List Char) :
    findStart tags previous (c :: rest) =
      (tagHere tags previous (c :: rest)).or (findStart tags (some c) rest) := by
  by_cases double : c = '<' ∧ rest.head? = some '<'
  · obtain ⟨rfl, next⟩ := double
    obtain ⟨right, rfl⟩ := List.head?_eq_some_iff.mp next
    rw [findStart, tagHere]
    generalize (if previous = some '<' ∨ right.head? = some '<' then none
      else tagAfter tags right) = found
    cases found with
    | none => rfl
    | some tag => rfl
  · rw [tagHere_of_ne double, Option.none_or, findStart]
    rintro right rfl rfl
    exact double ⟨rfl, rfl⟩

theorem tagAfter_of_findStart_eq_none
    {tags : List String} {previous : Option Char} {left right : List Char}
    (missed : findStart tags previous (left ++ '<' :: '<' :: right) = none)
    (apart : Apart previous left right) :
    tagAfter tags right = none := by
  induction left generalizing previous with
  | nil =>
      rw [List.nil_append, findStart_cons, Option.or_eq_none_iff, tagHere_of_apart apart] at missed
      exact missed.1
  | cons c more inductionHypothesis =>
      rw [List.cons_append, findStart_cons, Option.or_eq_none_iff] at missed
      exact inductionHypothesis missed.2 (Apart.cons_iff.mp apart)

/-- What is found stands at the first introducer after which a tag is found. -/
theorem exists_of_findStart_eq_some
    {tags : List String} {previous : Option Char} {cs : List Char} {tag : String}
    (found : findStart tags previous cs = some tag) :
    ∃ left right,
      cs = left ++ '<' :: '<' :: right ∧ Apart previous left right ∧
        tagAfter tags right = some tag ∧
          ∀ earlier later,
            cs = earlier ++ '<' :: '<' :: later → Apart previous earlier later →
              byteLength earlier < byteLength left → tagAfter tags later = none := by
  induction cs generalizing previous with
  | nil => cases found
  | cons c rest inductionHypothesis =>
      rw [findStart_cons, Option.or_eq_some_iff] at found
      rcases found with here | ⟨nothingHere, further⟩
      · obtain ⟨right, whole, apart, fits⟩ := apart_of_tagHere here
        exact ⟨[], right, whole, apart, fits,
          fun earlier later _ _ before => absurd before (Nat.not_lt_zero _)⟩
      · obtain ⟨left, right, rfl, apart, fits, first⟩ := inductionHypothesis further
        refine ⟨c :: left, right, rfl, Apart.cons_iff.mpr apart, fits, ?_⟩
        intro earlier later whole laterApart before
        cases earlier with
        | nil =>
            rw [List.nil_append] at whole
            rwa [whole, tagHere_of_apart laterApart] at nothingHere
        | cons d more =>
            obtain ⟨rfl, sameRest⟩ := List.cons.inj whole
            rw [byteLength, byteLength] at before
            exact first more later sameRest (Apart.cons_iff.mp laterApart) (by omega)

/-! ## From bytes to characters -/

theorem bytes_introducer (left right : List Char) :
    bytes (left ++ '<' :: '<' :: right) = bytes left ++ byte '<' :: byte '<' :: bytes right := by
  rw [Text.bytes_append, Text.bytes_cons_of_lt (by decide), Text.bytes_cons_of_lt (by decide)]

/-- The byte in front of `<<` is the last one of what stands there. -/
theorem getElem?_before_introducer
    {left : List Char} (nonempty : byteLength left ≠ 0) (right : List Char) :
    (bytes (left ++ '<' :: '<' :: right))[byteLength left - 1]? = (bytes left).getLast? := by
  have total := Text.length_bytes left
  rw [bytes_introducer, List.getElem?_append_left (by omega), List.getLast?_eq_getElem?, total]

theorem getElem?_after_introducer (left right : List Char) :
    (bytes (left ++ '<' :: '<' :: right))[byteLength left + 2]? = (bytes right).head? := by
  rw [Text.getElem?_bytes_append, Text.bytes_cons_of_lt (by decide),
    Text.bytes_cons_of_lt (by decide), List.head?_eq_getElem?]
  rfl

theorem byteLength_ne_zero {left : List Char} {c : Char} (last : left.getLast? = some c) :
    byteLength left ≠ 0 := by
  cases left with
  | nil => cases last
  | cons d more =>
      have positive := d.utf8Size_pos
      rw [byteLength]
      omega

theorem introduces_iff {cs : List Char} {offset : Nat} :
    Introduces (bytes cs) offset ↔
      ∃ left right,
        cs = left ++ '<' :: '<' :: right ∧ byteLength left = offset ∧ Apart none left right := by
  have ascii : '<'.toNat < 128 := by decide
  constructor
  · rintro ⟨first, second, before, after⟩
    obtain ⟨left, rest, rfl, rfl⟩ := Text.charAt?_eq_some ((Text.byte_eq_iff ascii).mp first)
    rw [Text.getElem?_bytes_append, Text.bytes_cons_of_lt ascii, List.getElem?_cons_succ,
      ← List.head?_eq_getElem?, Text.head?_bytes_eq_iff ascii] at second
    obtain ⟨right, rfl⟩ := List.head?_eq_some_iff.mp second
    refine ⟨left, right, rfl, rfl, ?_, ?_⟩
    · rw [Option.or_none]
      intro last
      have nonempty := byteLength_ne_zero last
      apply before.resolve_left nonempty
      rw [getElem?_before_introducer nonempty, Text.getLast?_bytes_eq_iff ascii]
      exact last
    · intro same
      apply after
      rw [getElem?_after_introducer, Text.head?_bytes_eq_iff ascii]
      exact same
  · rintro ⟨left, right, rfl, rfl, apart⟩
    refine ⟨?_, ?_, ?_, ?_⟩
    · have here := Text.getElem?_bytes_append left ('<' :: '<' :: right) 0
      rwa [Text.bytes_cons_of_lt ascii, List.getElem?_cons_zero, Nat.add_zero] at here
    · rw [Text.getElem?_bytes_append, Text.bytes_cons_of_lt ascii, Text.bytes_cons_of_lt ascii]
      rfl
    · by_cases empty : byteLength left = 0
      · exact .inl empty
      · refine .inr ?_
        rw [getElem?_before_introducer empty, ne_eq, Text.getLast?_bytes_eq_iff ascii]
        intro last
        apply apart.before
        rw [last]
        rfl
    · rw [getElem?_after_introducer, ne_eq, Text.head?_bytes_eq_iff ascii]
      exact apart.after

/-- A text without the quote at its front, if one is there. -/
def unquoted (cs : List Char) : List Char :=
  if cs.head? = some '\'' ∨ cs.head? = some '"' then cs.tail else cs

theorem afterIntroducer_eq_unquoted (rest : List Char) :
    afterIntroducer rest =
      unquoted ((if rest.head? = some '-' then rest.tail else rest).dropWhile
        fun c => c == ' ' || c == '\t') := by
  unfold afterIntroducer
  extract_lets undashed unspaced
  have undash : undashed = if rest.head? = some '-' then rest.tail else rest := by
    unfold undashed
    split
    · rfl
    · rename_i other
      rw [if_neg]
      intro dash
      obtain ⟨more, rfl⟩ := List.head?_eq_some_iff.mp dash
      exact other more rfl
  rw [← undash]
  change _ = unquoted unspaced
  clear_value unspaced
  split
  · rfl
  · rfl
  · rename_i single double
    rw [unquoted, if_neg]
    rintro (quote | quote)
    · obtain ⟨more, whole⟩ := List.head?_eq_some_iff.mp quote
      exact single more whole
    · obtain ⟨more, whole⟩ := List.head?_eq_some_iff.mp quote
      exact double more whole

theorem cut?_one
    {cs : List Char} {mark : Char} (ascii : mark.toNat < 128) (first : cs.head? = some mark) :
    Text.cut? 1 cs = some ([mark], cs.tail) := by
  obtain ⟨rest, rfl⟩ := List.head?_eq_some_iff.mp first
  refine Text.cut?_eq_some_iff.mpr ⟨rfl, ?_⟩
  rw [Text.byteLength_of_lt (by simpa using ascii)]
  rfl

theorem exists_cut?_dash (cs : List Char) :
    ∃ front,
      Text.cut? (if (bytes cs).head? = some (byte '-') then 1 else 0) cs =
        some (front, if cs.head? = some '-' then cs.tail else cs) := by
  have ascii : '-'.toNat < 128 := by decide
  simp only [Text.head?_bytes_eq_iff ascii]
  by_cases dash : cs.head? = some '-'
  · rw [if_pos dash, if_pos dash]
    exact ⟨_, cut?_one ascii dash⟩
  · rw [if_neg dash, if_neg dash]
    exact ⟨[], Text.cut?_eq_some_iff.mpr ⟨rfl, rfl⟩⟩

theorem exists_cut?_blanks (cs : List Char) :
    ∃ front,
      Text.cut? ((bytes cs).takeWhile isBlankByte).length cs =
        some (front, cs.dropWhile fun c => c == ' ' || c == '\t') := by
  have ascii : ∀ c : Char, (c == ' ' || c == '\t') = true → c.toNat < 128 := by
    intro c blank
    rw [Bool.or_eq_true, beq_iff_eq, beq_iff_eq] at blank
    rcases blank with rfl | rfl <;> decide
  refine ⟨_, Text.cut?_eq_some_iff.mpr ⟨List.takeWhile_append_dropWhile.symm, ?_⟩⟩
  have inside :
      ∀ c ∈ cs.takeWhile (fun c => c == ' ' || c == '\t'), (c == ' ' || c == '\t') = true :=
    List.all_eq_true.mp List.all_takeWhile
  rw [Text.byteLength_of_lt fun c member => ascii c (inside c member)]
  exact (Text.length_takeWhile_byteIn ascii cs).symm

theorem exists_cut?_quote (cs : List Char) :
    ∃ front,
      Text.cut?
          (if (bytes cs).head? = some (byte '\'') ∨ (bytes cs).head? = some (byte '"')
            then 1 else 0)
          cs =
        some (front, unquoted cs) := by
  have singleAscii : '\''.toNat < 128 := by decide
  have doubleAscii : '"'.toNat < 128 := by decide
  simp only [Text.head?_bytes_eq_iff singleAscii, Text.head?_bytes_eq_iff doubleAscii, unquoted]
  by_cases quote : cs.head? = some '\'' ∨ cs.head? = some '"'
  · rw [if_pos quote, if_pos quote]
    rcases quote with single | double
    · exact ⟨_, cut?_one singleAscii single⟩
    · exact ⟨_, cut?_one doubleAscii double⟩
  · rw [if_neg quote, if_neg quote]
    exact ⟨[], Text.cut?_eq_some_iff.mpr ⟨rfl, rfl⟩⟩

/-- A line can be cut where the tag has to stand. -/
theorem exists_cut?_tagOffset (left right : List Char) :
    ∃ front,
      Text.cut? (tagOffset (bytes (left ++ '<' :: '<' :: right)) (byteLength left))
          (left ++ '<' :: '<' :: right) =
        some (front, afterIntroducer right) := by
  have introducerCut :
      Text.cut? (byteLength left + 2) (left ++ '<' :: '<' :: right) =
        some (left ++ ['<', '<'], right) :=
    Text.cut?_eq_some_iff.mpr ⟨by simp, Text.byteLength_append left ['<', '<']⟩
  obtain ⟨dash, dashCut⟩ := exists_cut?_dash right
  obtain ⟨blanks, blanksCut⟩ :=
    exists_cut?_blanks (if right.head? = some '-' then right.tail else right)
  obtain ⟨quote, quoteCut⟩ :=
    exists_cut?_quote ((if right.head? = some '-' then right.tail else right).dropWhile
      fun c => c == ' ' || c == '\t')
  refine ⟨left ++ ['<', '<'] ++ (dash ++ blanks ++ quote), ?_⟩
  rw [tagOffset, afterIntroducer_eq_unquoted, introducerLength]
  simp only [Text.drop_bytes_of_cut? introducerCut, ← List.drop_drop,
    Text.drop_bytes_of_cut? dashCut, Text.drop_bytes_of_cut? blanksCut]
  exact Text.cut?_add introducerCut (Text.cut?_add (Text.cut?_add dashCut blanksCut) quoteCut)

theorem drop_tagOffset (left right : List Char) :
    (bytes (left ++ '<' :: '<' :: right)).drop
        (tagOffset (bytes (left ++ '<' :: '<' :: right)) (byteLength left)) =
      bytes (afterIntroducer right) := by
  obtain ⟨front, cut⟩ := exists_cut?_tagOffset left right
  exact Text.drop_bytes_of_cut? cut

theorem toNat_lt_of_isWordChar (c : Char) (word : isWordChar c = true) : c.toNat < 128 := by
  have range := toNat_of_isWordChar word
  omega

theorem isWordByte_head?_iff (after : List Char) :
    (∀ b, (bytes after).head? = some b → isWordByte b = false) ↔
      ∀ c, after.head? = some c → isWordChar c = false := by
  cases after with
  | nil =>
      constructor
      · intro _ c first
        cases first
      · intro _ b first
        cases first
  | cons c more =>
      have first : ∃ b ∈ String.utf8EncodeChar c, (bytes (c :: more)).head? = some b := by
        cases encoded : String.utf8EncodeChar c with
        | nil => exact absurd encoded String.utf8EncodeChar_ne_nil
        | cons b others =>
            refine ⟨b, List.mem_cons_self, ?_⟩
            rw [bytes, List.flatMap_cons, encoded]
            rfl
      obtain ⟨b, member, head⟩ := first
      have same : isWordByte b = isWordChar c :=
        Text.byteIn_of_mem toNat_lt_of_isWordChar member
      rw [head, List.head?_cons]
      constructor
      · intro all d isFirst
        obtain rfl := Option.some.inj isFirst
        rw [← same]
        exact all b rfl
      · intro all d isFirst
        obtain rfl := Option.some.inj isFirst
        rw [same]
        exact all c rfl

theorem fits_iff_bytes (rest : List Char) (tag : String) :
    fits rest tag = true ↔
      bytes tag.toList <+: bytes rest ∧
        ∀ b, (bytes rest)[(bytes tag.toList).length]? = some b → isWordByte b = false := by
  have next (after : List Char) :
      (bytes (tag.toList ++ after))[(bytes tag.toList).length]? = (bytes after).head? := by
    have here := Text.getElem?_bytes_append tag.toList after 0
    rwa [Nat.add_zero, ← Text.length_bytes, ← List.head?_eq_getElem?] at here
  rw [fits_iff, Text.bytes_prefix_iff]
  constructor
  · rintro ⟨after, rfl, bounded⟩
    refine ⟨List.prefix_append _ _, ?_⟩
    rw [next]
    exact (isWordByte_head?_iff after).mpr bounded
  · rintro ⟨⟨after, rfl⟩, bounded⟩
    rw [next] at bounded
    exact ⟨after, rfl, (isWordByte_head?_iff after).mp bounded⟩

theorem fitsAt_iff (left right : List Char) (tag : String) :
    FitsAt (bytes (left ++ '<' :: '<' :: right)) (byteLength left) tag ↔
      fits (afterIntroducer right) tag = true := by
  rw [fits_iff_bytes, ← drop_tagOffset left right]
  simp only [List.getElem?_drop]
  constructor
  · rintro ⟨stands, bounded⟩
    exact ⟨stands, bounded⟩
  · rintro ⟨stands, bounded⟩
    exact ⟨stands, bounded⟩

theorem tagAfter_eq_none_iff (tags : List String) (left right : List Char) :
    tagAfter tags right = none ↔
      ∀ tag ∈ tags, ¬ FitsAt (bytes (left ++ '<' :: '<' :: right)) (byteLength left) tag := by
  simp only [tagAfter, List.find?_eq_none, fitsAt_iff]

end Marker

end Heredoc
