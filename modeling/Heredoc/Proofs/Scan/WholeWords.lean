import Heredoc.Proofs.Scan.Exactness
import Heredoc.Proofs.Scan.Grammar

/-!
# Tags that are words

If all tags are words, the line alone decides which tag can stand after an introducer: it is the
identifier that is found there, the whole run of word bytes. So no two tags compete for one place, a
tag that only starts a longer identifier opens nothing, and neither the order of the tags nor how
often one is listed makes a difference (`tags_match_whole_words`).
-/

namespace Heredoc

namespace Marker

open Text (bytes byte)

/-- The run of word bytes where the tag has to stand that is introduced at this offset. -/
def identifierAt (line : List UInt8) (offset : Nat) : List UInt8 :=
  (line.drop (tagOffset line offset)).takeWhile isWordByte

/-- The longest run of a class at the front is the one that nothing of the class follows. -/
theorem takeWhile_eq_iff
    {p : UInt8 → Bool} {front rest : List UInt8} (inside : ∀ b ∈ front, p b = true) :
    rest.takeWhile p = front ↔
      front <+: rest ∧ ∀ b, rest[front.length]? = some b → p b = false := by
  have next (after : List UInt8) : (front ++ after)[front.length]? = after.head? := by
    rw [List.getElem?_append_right (Nat.le_refl _), Nat.sub_self, List.head?_eq_getElem?]
  constructor
  · rintro rfl
    refine ⟨List.takeWhile_prefix p, ?_⟩
    intro b shown
    have first := next (rest.dropWhile p)
    rw [List.takeWhile_append_dropWhile, shown] at first
    have outside := List.head?_dropWhile_not p rest
    rw [← first] at outside
    exact outside
  · rintro ⟨⟨after, rfl⟩, bounded⟩
    rw [next] at bounded
    rw [List.takeWhile_append_of_pos inside]
    cases after with
    | nil => rw [List.takeWhile_nil, List.append_nil]
    | cons b more =>
        have outside := bounded b rfl
        rw [List.takeWhile_cons_of_neg (by rw [outside]; exact Bool.false_ne_true), List.append_nil]

theorem IsWord.isWordByte_of_mem
    {tag : String} (word : IsWord tag) {b : UInt8} (member : b ∈ bytes tag.toList) :
    isWordByte b = true := by
  have all : (bytes tag.toList).all isWordByte = true := by
    rw [isWordByte, Text.all_byteIn toNat_lt_of_isWordChar, List.all_eq_true]
    exact word.wordChars
  exact List.all_eq_true.mp all b member

theorem fitsAt_iff_identifierAt
    {tag : String} (word : IsWord tag) (line : List UInt8) (offset : Nat) :
    FitsAt line offset tag ↔ identifierAt line offset = bytes tag.toList := by
  rw [identifierAt, takeWhile_eq_iff fun b member => word.isWordByte_of_mem member]
  simp only [List.getElem?_drop]
  constructor
  · rintro ⟨stands, bounded⟩
    exact ⟨stands, bounded⟩
  · rintro ⟨stands, bounded⟩
    exact ⟨stands, bounded⟩

theorem eq_of_fitsAt
    {tag other : String} (word : IsWord tag) (otherWord : IsWord other)
    {line : List UInt8} {offset : Nat}
    (fits : FitsAt line offset tag) (otherFits : FitsAt line offset other) :
    tag = other := by
  have found := (fitsAt_iff_identifierAt word line offset).mp fits
  have otherFound := (fitsAt_iff_identifierAt otherWord line offset).mp otherFits
  exact String.toList_inj.mp (Text.bytes_inj.mp (found.symm.trans otherFound))

/-- The tag is the identifier at this offset, and at no introducer further left the identifier is a
tag. -/
structure Names (tags : List String) (line : List UInt8) (offset : Nat) (tag : String) : Prop where
  introduces : Introduces line offset
  member : tag ∈ tags
  identifier : identifierAt line offset = bytes tag.toList
  leftmost :
    ∀ earlier < offset, Introduces line earlier →
      ∀ other ∈ tags, identifierAt line earlier ≠ bytes other.toList

theorem Names.unique
    {tags : List String} {line : List UInt8} {offset other : Nat} {tag otherTag : String}
    (names : Names tags line offset tag) (otherNames : Names tags line other otherTag) :
    tag = otherTag := by
  have same : offset = other := by
    rcases Nat.lt_trichotomy offset other with further | same | further
    · exact absurd names.identifier
        (otherNames.leftmost offset further names.introduces tag names.member)
    · exact same
    · exact absurd otherNames.identifier
        (names.leftmost other further otherNames.introduces otherTag otherNames.member)
  subst same
  exact String.toList_inj.mp (Text.bytes_inj.mp (names.identifier.symm.trans otherNames.identifier))

section Words

variable {tags : List String} (words : ∀ tag ∈ tags, IsWord tag)
include words

theorem exists_names_of_start?
    {line tag : String} (found : start? tags line = some tag) :
    ∃ offset, Names tags (bytes line.toList) offset tag := by
  obtain ⟨offset, introduces, fits, ⟨before, after, listed, _⟩, leftmost⟩ :=
    start?_eq_some_iff.mp found
  have member : tag ∈ tags := by
    rw [listed]
    exact List.mem_append_right before List.mem_cons_self
  refine ⟨offset, introduces, member, ?_, ?_⟩
  · exact (fitsAt_iff_identifierAt (words tag member) _ _).mp fits
  · intro earlier further earlierIntroduces other otherMember same
    exact leftmost earlier further earlierIntroduces other otherMember
      ((fitsAt_iff_identifierAt (words other otherMember) _ _).mpr same)

/-- A line opens the heredoc of the first identifier after an introducer that is a tag. The list
counts here only for its members. -/
theorem start?_eq_some_iff_names {line tag : String} :
    start? tags line = some tag ↔ ∃ offset, Names tags (bytes line.toList) offset tag := by
  constructor
  · exact exists_names_of_start? words
  · rintro ⟨offset, names⟩
    cases found : start? tags line with
    | none =>
        exact absurd ((fitsAt_iff_identifierAt (words tag names.member) _ _).mpr names.identifier)
          (start?_eq_none_iff.mp found offset names.introduces tag names.member)
    | some other =>
        obtain ⟨otherOffset, otherNames⟩ := exists_names_of_start? words found
        rw [names.unique otherNames]

theorem start?_congr_mem
    {others : List String} (same : ∀ tag, tag ∈ others ↔ tag ∈ tags) (line : String) :
    start? others line = start? tags line := by
  have otherWords : ∀ tag ∈ others, IsWord tag := fun tag member => words tag ((same tag).mp member)
  apply Option.ext
  intro tag
  rw [start?_eq_some_iff_names words, start?_eq_some_iff_names otherWords]
  constructor
  · rintro ⟨offset, introduces, member, identifier, leftmost⟩
    exact ⟨offset, introduces, (same tag).mp member, identifier,
      fun earlier further introduces other otherMember =>
        leftmost earlier further introduces other ((same other).mpr otherMember)⟩
  · rintro ⟨offset, introduces, member, identifier, leftmost⟩
    exact ⟨offset, introduces, (same tag).mpr member, identifier,
      fun earlier further introduces other otherMember =>
        leftmost earlier further introduces other ((same other).mp otherMember)⟩

end Words

end Marker

namespace Scan

theorem exact_of_scan_eq_ok
    {table : TagTable} {view : View} {regions : List Region}
    (found : scan table view = .ok regions) :
    Exact table view 0 regions := by
  rw [scan, View.lines] at found
  cases read : readLines view.line 0 view.lineCount with
  | error missing =>
      rw [read] at found
      cases found
  | ok lines =>
      rw [read] at found
      obtain ⟨total, shown⟩ := line_eq_of_readLines read
      exact (exact_iff total shown List.drop_zero.symm regions).mpr (Except.ok.inj found).symm

theorem exists_names_of_scan
    {table : TagTable} (words : ∀ tag ∈ table.tags, Marker.IsWord tag)
    {view : View} {regions : List Region} (found : scan table view = .ok regions)
    {region : Region} (member : region ∈ regions) :
    ∃ line offset,
      view.line region.markerLine = some line ∧
        Marker.Names table.tags (Text.bytes line.toList) offset region.tag := by
  obtain ⟨line, shown, opens⟩ := (exact_of_scan_eq_ok found).opened region member
  obtain ⟨offset, names⟩ := Marker.exists_names_of_start? words opens
  exact ⟨line, offset, shown, names⟩

end Scan

namespace Marker

open Text (bytes)

/-- Of tags that are words at most one fits at an introducer, the identifier found there. One that
is only the front of a longer identifier fits nowhere and opens no region, and the list of tags
counts for its members alone. -/
theorem tags_match_whole_words
    (tags : List String) (words : ∀ tag ∈ tags, IsWord tag) (line : String) :
    (∀ offset, Introduces (bytes line.toList) offset →
        ∀ tag ∈ tags,
          (FitsAt (bytes line.toList) offset tag ↔
              bytes tag.toList = identifierAt (bytes line.toList) offset) ∧
            (∀ other ∈ tags,
              FitsAt (bytes line.toList) offset tag → FitsAt (bytes line.toList) offset other →
                tag = other) ∧
              (bytes tag.toList <+: identifierAt (bytes line.toList) offset →
                bytes tag.toList ≠ identifierAt (bytes line.toList) offset →
                  ¬ FitsAt (bytes line.toList) offset tag)) ∧
      (∀ tag,
        start? tags line = some tag ↔ ∃ offset, Names tags (bytes line.toList) offset tag) ∧
        (∀ others, (∀ tag, tag ∈ others ↔ tag ∈ tags) → start? others line = start? tags line) ∧
          ∀ (table : TagTable) (view : View) (regions : List Region),
            (∀ tag, tag ∈ table.tags ↔ tag ∈ tags) → scan table view = .ok regions →
              ∀ region ∈ regions, ∃ marker offset,
                view.line region.markerLine = some marker ∧
                  Names table.tags (bytes marker.toList) offset region.tag := by
  refine ⟨?_, fun tag => start?_eq_some_iff_names words, ?_, ?_⟩
  · intro offset _ tag member
    have fits_iff := fitsAt_iff_identifierAt (words tag member) (bytes line.toList) offset
    refine ⟨fits_iff.trans eq_comm, ?_, ?_⟩
    · intro other otherMember fits otherFits
      exact eq_of_fitsAt (words tag member) (words other otherMember) fits otherFits
    · intro _ shorter fits
      exact shorter (fits_iff.mp fits).symm
  · intro others same
    exact start?_congr_mem words same line
  · intro table view regions same found region member
    have tableWords : ∀ tag ∈ table.tags, IsWord tag :=
      fun tag listed => words tag ((same tag).mp listed)
    exact Scan.exists_names_of_scan tableWords found member

/-- After the first introducer the shorter tag starts an identifier that is no tag. -/
theorem tags_match_whole_words_python :
    let line := "cat <<PYX <<- 'PYTHON'"
    (∀ tag ∈ ["PY", "PYTHON"], IsWord tag) ∧
      Introduces (bytes line.toList) 4 ∧ ¬ FitsAt (bytes line.toList) 4 "PY" ∧
        start? ["PYTHON", "PY", "PYTHON"] line = start? ["PY", "PYTHON"] line ∧
          ∃ offset, Names ["PY", "PYTHON"] (bytes line.toList) offset "PYTHON" := by
  intro line
  have words : ∀ tag ∈ ["PY", "PYTHON"], IsWord tag := by
    intro tag member
    rcases List.mem_pair.mp member with rfl | rfl
    · exact ⟨by decide, List.all_eq_true.mp (by decide)⟩
    · exact ⟨by decide, List.all_eq_true.mp (by decide)⟩
  obtain ⟨fits, names, order, _⟩ := tags_match_whole_words ["PY", "PYTHON"] words line
  have introduces : Introduces (bytes line.toList) 4 :=
    ⟨by decide +kernel, by decide +kernel, .inr (by decide +kernel), by decide +kernel⟩
  refine ⟨words, introduces, ?_, ?_, ?_⟩
  · exact (fits 4 introduces "PY" List.mem_cons_self).2.2 (by decide +kernel) (by decide +kernel)
  · exact order _ (by simp)
  · exact (names "PYTHON").mp (by decide +kernel)

end Marker

end Heredoc
