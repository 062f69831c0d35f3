import Heredoc.Proofs.Scan.Introducers
import Heredoc.Proofs.Tag.Order

/-!
# Which tag a line opens

Main statement: a line opens the heredoc of the first listed tag that fits at the leftmost
introducer where a tag fits at all, and a search that looks at single bytes and cuts the line at
byte offsets finds it without a cut or an index that fails (`start?_grammar`). Tags are listed
longest first, so of the tags that fit at one place the longest is found (`Finds.lt_of_fitsAt`).
-/

namespace Heredoc

namespace Marker

open Text (bytes byte byteLength)

/-- The tag is the first listed one that fits at this offset, and at no introducer further left a
listed tag fits. -/
structure Finds (tags : List String) (written : List UInt8) (offset : Nat) (tag : String) :
    Prop where
  introduces : Introduces written offset
  fits : FitsAt written offset tag
  first :
    ∃ before after,
      tags = before ++ tag :: after ∧ ∀ other ∈ before, ¬ FitsAt written offset other
  leftmost :
    ∀ earlier < offset,
      Introduces written earlier → ∀ other ∈ tags, ¬ FitsAt written earlier other

/-! ## Lines -/

theorem start?_eq_none_iff {tags : List String} {line : String} :
    start? tags line = none ↔
      ∀ offset, Introduces (bytes line.toList) offset →
        ∀ tag ∈ tags, ¬ FitsAt (bytes line.toList) offset tag := by
  constructor
  · intro missed offset introduces
    obtain ⟨left, right, whole, rfl, apart⟩ := introduces_iff.mp introduces
    rw [start?, whole] at missed
    rw [whole]
    exact (tagAfter_eq_none_iff tags left right).mp (tagAfter_of_findStart_eq_none missed apart)
  · intro unfit
    cases found : start? tags line with
    | none => rfl
    | some tag =>
        obtain ⟨left, right, whole, apart, fits, _⟩ := exists_of_findStart_eq_some found
        have introduces := introduces_iff.mpr ⟨left, right, whole, rfl, apart⟩
        have missed := (tagAfter_eq_none_iff tags left right).mpr (whole ▸ unfit _ introduces)
        rw [missed] at fits
        cases fits

theorem exists_finds_of_start?
    {tags : List String} {line : String} {tag : String}
    (found : start? tags line = some tag) :
    ∃ offset, Finds tags (bytes line.toList) offset tag := by
  obtain ⟨left, right, whole, apart, chosen, leftmost⟩ := exists_of_findStart_eq_some found
  have introduces := introduces_iff.mpr ⟨left, right, whole, rfl, apart⟩
  obtain ⟨fits, before, after, listed, unfit⟩ := List.find?_eq_some_iff_append.mp chosen
  refine ⟨byteLength left, introduces, ?_, ⟨before, after, listed, ?_⟩, ?_⟩
  · rw [whole]
    exact (fitsAt_iff left right tag).mpr fits
  · intro other member
    rw [whole, fitsAt_iff, Bool.not_eq_true, ← Bool.not_eq_true']
    exact unfit other member
  · intro earlier further earlierIntroduces
    obtain ⟨first, later, otherWhole, rfl, otherApart⟩ := introduces_iff.mp earlierIntroduces
    rw [otherWhole]
    exact (tagAfter_eq_none_iff tags first later).mp
      (leftmost first later otherWhole otherApart further)

/-- A line has at most one leftmost introducer and at most one first tag there. -/
theorem Finds.unique
    {tags : List String} {line : List UInt8} {offset other : Nat} {tag otherTag : String}
    (finds : Finds tags line offset tag) (otherFinds : Finds tags line other otherTag) :
    offset = other ∧ tag = otherTag := by
  have mem {offset : Nat} {tag : String} (finds : Finds tags line offset tag) : tag ∈ tags := by
    obtain ⟨before, after, rfl, _⟩ := finds.first
    exact List.mem_append_right before List.mem_cons_self
  obtain rfl : offset = other := by
    rcases Nat.lt_trichotomy offset other with further | same | further
    · exact absurd finds.fits
        (otherFinds.leftmost offset further finds.introduces tag (mem finds))
    · exact same
    · exact absurd otherFinds.fits
        (finds.leftmost other further otherFinds.introduces otherTag (mem otherFinds))
  refine ⟨rfl, ?_⟩
  obtain ⟨before, after, rfl, unfit⟩ := finds.first
  obtain ⟨otherBefore, otherAfter, same, otherUnfit⟩ := otherFinds.first
  -- The shorter list in front would hold the other tag, which fits.
  rcases List.append_eq_append_iff.mp same with ⟨extra, longer, rest⟩ | ⟨extra, longer, rest⟩
  · cases extra with
    | nil => exact (List.cons.inj rest).1
    | cons first more =>
        obtain ⟨rfl, _⟩ := List.cons.inj rest
        exact absurd finds.fits (otherUnfit tag (by rw [longer]; simp))
  · cases extra with
    | nil => exact (List.cons.inj rest).1.symm
    | cons first more =>
        obtain ⟨rfl, _⟩ := List.cons.inj rest
        exact absurd otherFinds.fits (unfit otherTag (by rw [longer]; simp))

theorem start?_eq_some_iff {tags : List String} {line : String} {tag : String} :
    start? tags line = some tag ↔ ∃ offset, Finds tags (bytes line.toList) offset tag := by
  constructor
  · exact exists_finds_of_start?
  · rintro ⟨offset, finds⟩
    cases found : start? tags line with
    | none =>
        obtain ⟨before, after, rfl, _⟩ := finds.first
        exact absurd finds.fits
          (start?_eq_none_iff.mp found offset finds.introduces tag
            (List.mem_append_right before List.mem_cons_self))
    | some other =>
        obtain ⟨otherOffset, otherFinds⟩ := exists_finds_of_start? found
        rw [(finds.unique otherFinds).2]

/-! ## A search by bytes -/

/-- Whether the tag stands at the front of these bytes and no word byte follows it. -/
def fitsBytes (rest : List UInt8) (tag : String) : Bool :=
  (bytes tag.toList).isPrefixOf rest && !(rest[(bytes tag.toList).length]?.any isWordByte)

/-- The byte in front of an offset, if that is not the start of the line. Fails if there is none. -/
def byteBefore? (written : List UInt8) (offset : Nat) : Option (Option UInt8) :=
  if offset = 0 then some none else written[offset - 1]?.map some

/-- Tries the `<<` at an offset. Fails if there is no byte in front of it though it is not the first,
or if the line cannot be cut where the tag has to stand. -/
def probe? (tags : List String) (line : List Char) (offset : Nat) : Option (Option String) := do
  let previous ← byteBefore? (bytes line) offset
  if previous = some (byte '<') ∨ (bytes line)[offset + 2]? = some (byte '<') then
    return none
  let (_, rest) ← Text.cut? (tagOffset (bytes line) offset) line
  return tags.find? (fitsBytes (bytes rest))

theorem lt_byteLength_of_before?
    {line left rest skipped : List Char} {start : Nat}
    (cut : Text.cut? start line = some (left, rest))
    (found : Text.before? ['<', '<'] rest = some skipped) :
    start + byteLength skipped + 1 < byteLength line := by
  obtain ⟨rfl, rfl⟩ := Text.cut?_eq_some_iff.mp cut
  obtain ⟨after, rfl⟩ := Text.exists_append_of_before? found
  have double : byteLength ['<', '<'] = 2 := rfl
  rw [Text.byteLength_append, Text.byteLength_append, Text.byteLength_append, double]
  omega

/-- Tries each `<<` of a line from an offset on, the next one from one byte further. Fails if the
line cannot be cut there, or if a try fails. -/
def search? (tags : List String) (line : List Char) (start : Nat) : Option (Option String) :=
  match _cut : Text.cut? start line with
  | none => none
  | some (_, rest) =>
      match _found : Text.before? ['<', '<'] rest with
      | none => some none
      | some skipped =>
          match probe? tags line (start + byteLength skipped) with
          | none => none
          | some (some tag) => some (some tag)
          | some none => search? tags line (start + byteLength skipped + 1)
termination_by byteLength line - start
decreasing_by
  have further := lt_byteLength_of_before? _cut _found
  omega

theorem fitsBytes_bytes (rest : List Char) (tag : String) :
    fitsBytes (bytes rest) tag = fits rest tag := by
  rw [Bool.eq_iff_iff, fits_iff_bytes, fitsBytes, Bool.and_eq_true, List.isPrefixOf_iff_prefix,
    Bool.not_eq_true']
  refine and_congr_right fun _ => ?_
  cases (bytes rest)[(bytes tag.toList).length]? with
  | none => simp
  | some b => simp

theorem byteBefore?_eq (left right : List Char) :
    byteBefore? (bytes (left ++ '<' :: '<' :: right)) (byteLength left) =
      some (bytes left).getLast? := by
  rw [byteBefore?]
  by_cases empty : byteLength left = 0
  · have noBytes : bytes left = [] := List.length_eq_zero_iff.mp (by rw [Text.length_bytes, empty])
    rw [if_pos empty, noBytes]
    rfl
  · have nonempty : bytes left ≠ [] := fun same => empty (by rw [← Text.length_bytes, same]; rfl)
    rw [if_neg empty, getElem?_before_introducer empty, List.getLast?_eq_some_getLast nonempty]
    rfl

theorem probe?_eq (tags : List String) (left right : List Char) :
    probe? tags (left ++ '<' :: '<' :: right) (byteLength left) =
      some (tagHere tags left.getLast? ('<' :: '<' :: right)) := by
  have ascii : '<'.toNat < 128 := by decide
  obtain ⟨front, cut⟩ := exists_cut?_tagOffset left right
  have sameFits : fitsBytes (bytes (afterIntroducer right)) = fits (afterIntroducer right) :=
    funext (fitsBytes_bytes _)
  simp only [probe?, byteBefore?_eq, Option.bind_eq_bind, Option.bind_some,
    getElem?_after_introducer, Text.getLast?_bytes_eq_iff ascii, Text.head?_bytes_eq_iff ascii,
    cut, sameFits, tagHere]
  split
  · rfl
  · rfl

theorem findStart_of_before?_eq_none
    {rest : List Char} (absent : Text.before? ['<', '<'] rest = none)
    (tags : List String) (previous : Option Char) :
    findStart tags previous rest = none := by
  induction rest generalizing previous with
  | nil => rfl
  | cons c more inductionHypothesis =>
      rw [Text.before?] at absent
      by_cases here : ['<', '<'].isPrefixOf (c :: more) = true
      · rw [if_pos here] at absent
        cases absent
      · rw [if_neg here, Option.map_eq_none_iff] at absent
        rw [findStart_cons, tagHere_of_ne (single_of_not_isPrefixOf here), Option.none_or,
          inductionHypothesis absent]

/-- Up to the next `<<` nothing is found. -/
theorem findStart_append_of_before?
    {rest skipped : List Char} (found : Text.before? ['<', '<'] rest = some skipped)
    (tags : List String) (previous : Option Char) :
    findStart tags previous rest =
      findStart tags (skipped.getLast?.or previous) (rest.drop skipped.length) := by
  induction rest generalizing skipped previous with
  | nil => cases found
  | cons c more inductionHypothesis =>
      rw [Text.before?] at found
      by_cases here : ['<', '<'].isPrefixOf (c :: more) = true
      · rw [if_pos here] at found
        cases found
        rfl
      · rw [if_neg here] at found
        obtain ⟨kept, moreFound, rfl⟩ := Option.map_eq_some_iff.mp found
        rw [findStart_cons, tagHere_of_ne (single_of_not_isPrefixOf here), Option.none_or,
          inductionHypothesis moreFound, getLast?_cons_or]
        rfl

/-- The search by bytes does not fail and finds what the search by characters finds; in front of
where it goes on stands a part of the line. -/
theorem search?_append (tags : List String) (front rest : List Char) :
    search? tags (front ++ rest) (byteLength front) =
      some (findStart tags front.getLast? rest) := by
  induction total : rest.length using Nat.strongRecOn generalizing front rest with
  | ind length inductionHypothesis =>
      have cut := Text.cut?_byteLength front rest
      rw [search?]
      split
      · rename_i failed
        rw [cut] at failed
        cases failed
      · rename_i left others same
        obtain ⟨rfl, rfl⟩ := Prod.mk.inj (Option.some.inj (cut.symm.trans same))
        split
        · rename_i absent
          rw [findStart_of_before?_eq_none absent]
        · rename_i skipped found
          obtain ⟨right, rfl⟩ := Text.exists_append_of_before? found
          have whole :
              front ++ (skipped ++ ('<' :: '<' :: right)) =
                (front ++ skipped) ++ '<' :: '<' :: right :=
            (List.append_assoc _ _ _).symm
          have further :
              (front ++ skipped) ++ '<' :: '<' :: right =
                (front ++ skipped ++ ['<']) ++ '<' :: right := by
            rw [List.append_assoc _ ['<'], List.singleton_append]
          have shorter : ('<' :: right).length < length := by
            rw [← total]
            simp
            omega
          have onward :=
            inductionHypothesis _ shorter (front ++ skipped ++ ['<']) ('<' :: right) rfl
          rw [← further, Text.byteLength_append, List.getLast?_concat] at onward
          rw [findStart_append_of_before? found, List.drop_left, ← List.getLast?_append,
            ← Text.byteLength_append]
          simp only [List.cons_append, List.nil_append] at whole ⊢
          rw [whole, probe?_eq, findStart_cons]
          cases tagHere tags (front ++ skipped).getLast? ('<' :: '<' :: right) with
          | some tag => rfl
          | none => exact onward

/-! ## Tags that are listed longest first -/

/-- Of the tags that fit the longest one is found. -/
theorem Finds.lt_of_fitsAt
    {table : TagTable} {line : List UInt8} {offset : Nat} {tag other : String}
    (finds : Finds table.tags line offset tag) (member : other ∈ table.tags)
    (fits : FitsAt line offset other) (different : other ≠ tag) :
    other.utf8ByteSize < tag.utf8ByteSize := by
  obtain ⟨before, after, listed, unfit⟩ := finds.first
  have later : other ∈ after := by
    rw [listed] at member
    rcases List.mem_append.mp member with earlier | rest
    · exact absurd fits (unfit other earlier)
    · exact (List.mem_cons.mp rest).resolve_left different
  have ordered := table.pairwise_tags
  rw [listed, List.pairwise_append, List.pairwise_cons] at ordered
  refine Nat.lt_of_le_of_ne (TagTable.le_of_listedBefore (ordered.2.1.1 other later)) ?_
  intro sameSize
  -- Two tags at one place with as many bytes are the same.
  have sameLength : (bytes other.toList).length = (bytes tag.toList).length := by
    rw [Text.length_bytes, Text.length_bytes, Text.byteLength_toList, Text.byteLength_toList,
      sameSize]
  have sameBytes : bytes other.toList = bytes tag.toList :=
    (List.prefix_of_prefix_length_le fits.stands finds.fits.stands
      (Nat.le_of_eq sameLength)).eq_of_length sameLength
  exact different (String.toList_inj.mp (Text.bytes_inj.mp sameBytes))

/-- A line opens the heredoc of the first listed tag that fits at the leftmost introducer where one
does; of the tags of a table that is the longest. A search by bytes finds it, and none of its cuts
and indices fails. -/
theorem start?_grammar (tags : List String) (line : String) :
    (start? tags line = none ↔
        ∀ offset, Introduces (bytes line.toList) offset →
          ∀ tag ∈ tags, ¬ FitsAt (bytes line.toList) offset tag) ∧
      (∀ tag,
        start? tags line = some tag ↔ ∃ offset, Finds tags (bytes line.toList) offset tag) ∧
        (∀ (table : TagTable) (offset : Nat) (tag : String),
          Finds table.tags (bytes line.toList) offset tag →
            ∀ other ∈ table.tags, FitsAt (bytes line.toList) offset other →
              other ≠ tag → other.utf8ByteSize < tag.utf8ByteSize) ∧
          search? tags line.toList 0 = some (start? tags line) := by
  refine ⟨start?_eq_none_iff, fun tag => start?_eq_some_iff, ?_, ?_⟩
  · intro table offset tag finds other member fits different
    exact finds.lt_of_fitsAt member fits different
  · exact search?_append tags [] line.toList

end Marker

end Heredoc
