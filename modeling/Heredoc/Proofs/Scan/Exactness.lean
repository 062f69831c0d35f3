import Heredoc.Proofs.Scan.Loop
import Mathlib.Data.List.Chain

/-!
# Which regions a scan finds

The regions of a buffer can be said without a scan: they follow each other, each one runs from a
start marker to the first terminator of its tag, and a start marker outside all of them has no
terminator after it. Main statement: exactly one list of regions is like that, and it is the one
that a scan gives (`scan_exact`).
-/

namespace Heredoc

/-- The line is a start marker of the tag. -/
def View.Opens (view : View) (table : TagTable) (index : Nat) (tag : String) : Prop :=
  ∃ line, view.line index = some line ∧ Marker.start? table.tags line = some tag

/-- The line ends the heredoc of the tag. -/
def View.Ends (view : View) (index : Nat) (tag : String) : Prop :=
  ∃ line, view.line index = some line ∧ Marker.isTerminator line tag = true

/-- The line belongs to the region: its marker, its body or its terminator. -/
def Region.Spans (region : Region) (index : Nat) : Prop :=
  region.markerLine ≤ index ∧ index ≤ region.terminatorLine

namespace Scan

/-- These are the regions of a view from a line on. -/
structure Exact (table : TagTable) (view : View) (start : Nat) (regions : List Region) : Prop where
  ordered : regions.IsChain fun region later => region.terminatorLine < later.markerLine
  begun : ∀ region ∈ regions, start ≤ region.markerLine
  bounded :
    ∀ region ∈ regions,
      1 ≤ region.bodyStart ∧ region.bodyStart ≤ region.bodyEnd ∧ region.bodyEnd < view.lineCount
  opened : ∀ region ∈ regions, view.Opens table (region.bodyStart - 1) region.tag
  ended : ∀ region ∈ regions, view.Ends region.bodyEnd region.tag
  unended :
    ∀ region ∈ regions, ∀ index,
      region.bodyStart ≤ index → index < region.bodyEnd → ¬ view.Ends index region.tag
  complete :
    ∀ index tag,
      start ≤ index → index < view.lineCount → (∀ region ∈ regions, ¬ region.Spans index) →
        view.Opens table index tag →
          ∀ later, index < later → later < view.lineCount → ¬ view.Ends later tag

namespace Exact

variable {table : TagTable} {view : View} {start stop : Nat} {tag : String}
  {regions : List Region}

theorem pairwise (exact : Exact table view start regions) :
    regions.Pairwise fun region later => region.terminatorLine < later.markerLine := by
  have chain := exact.ordered
  have sound : ∀ region ∈ regions, region.markerLine ≤ region.terminatorLine := by
    intro region member
    have := exact.bounded region member
    simp only [Region.markerLine, Region.terminatorLine]
    omega
  clear exact
  induction regions with
  | nil => exact .nil
  | cons first rest inductionHypothesis =>
      rw [List.isChain_cons] at chain
      have restPairwise :=
        inductionHypothesis chain.2 fun region member => sound region (List.mem_cons_of_mem _ member)
      refine List.pairwise_cons.mpr ⟨?_, restPairwise⟩
      intro later member
      cases rest with
      | nil => cases member
      | cons second others =>
          have next : first.terminatorLine < second.markerLine := chain.1 second rfl
          rcases List.mem_cons.mp member with rfl | further
          · exact next
          · have secondSound := sound second (by simp)
            have beyond := (List.pairwise_cons.mp restPairwise).1 later further
            omega

theorem of_le (atEnd : view.lineCount ≤ start) :
    Exact table view start regions ↔ regions = [] := by
  constructor
  · intro exact
    refine List.eq_nil_iff_forall_not_mem.mpr ?_
    intro region member
    have begun := exact.begun region member
    have bounded := exact.bounded region member
    simp only [Region.markerLine] at begun
    omega
  · rintro rfl
    refine ⟨.nil, ?_, ?_, ?_, ?_, ?_, ?_⟩
    · simp
    · simp
    · simp
    · simp
    · simp
    · intro index tag reached inside
      omega

/-- A line that opens nothing does not count. -/
theorem skip
    (idle :
      ∀ tag, view.Opens table start tag →
        ∀ later, start < later → later < view.lineCount → ¬ view.Ends later tag) :
    Exact table view start regions ↔ Exact table view (start + 1) regions := by
  constructor
  · intro exact
    refine ⟨exact.ordered, ?_, exact.bounded, exact.opened, exact.ended, exact.unended,
      fun index tag reached => exact.complete index tag (Nat.le_of_succ_le reached)⟩
    intro region member
    have bounded := exact.bounded region member
    refine Nat.lt_of_le_of_ne (exact.begun region member) ?_
    intro here
    have opened := exact.opened region member
    rw [Region.markerLine] at here
    rw [← here] at opened
    exact idle region.tag opened region.bodyEnd (by omega) bounded.2.2
      (exact.ended region member)
  · intro exact
    refine ⟨exact.ordered, fun region member => Nat.le_of_succ_le (exact.begun region member),
      exact.bounded, exact.opened, exact.ended, exact.unended, ?_⟩
    intro index tag reached inside outside opened
    rcases Nat.eq_or_lt_of_le reached with rfl | after
    · exact idle tag opened
    · exact exact.complete index tag after inside outside opened

/-- What opens at the first line ends at the first terminator of its tag. -/
theorem eq_of_spans
    {region : Region}
    (exact : Exact table view start regions)
    (member : region ∈ regions) (spanned : region.Spans start)
    (opens : view.Opens table start tag)
    (later : start < stop) (ends : view.Ends stop tag)
    (first : ∀ index, start < index → index < stop → ¬ view.Ends index tag) :
    region = ⟨tag, start + 1, stop⟩ := by
  have bounded := exact.bounded region member
  have here : region.bodyStart = start + 1 := by
    have begun := exact.begun region member
    have reached := spanned.1
    simp only [Region.markerLine] at begun reached
    omega
  have sameTag : region.tag = tag := by
    obtain ⟨line, shown, found⟩ := opens
    obtain ⟨other, otherShown, otherFound⟩ := exact.opened region member
    rw [here, Nat.add_sub_cancel, shown] at otherShown
    rw [← Option.some.inj otherShown, found] at otherFound
    exact (Option.some.inj otherFound).symm
  have sameStop : region.bodyEnd = stop := by
    rcases Nat.lt_trichotomy region.bodyEnd stop with before | same | after
    · exact absurd (sameTag ▸ exact.ended region member)
        (first region.bodyEnd (by omega) before)
    · exact same
    · exact absurd (sameTag ▸ ends) (exact.unended region member stop (by omega) after)
  cases region
  simp_all

/-- A line that opens a region makes it the first one. -/
theorem cons
    (opens : view.Opens table start tag)
    (later : start < stop) (inside : stop < view.lineCount) (ends : view.Ends stop tag)
    (first : ∀ index, start < index → index < stop → ¬ view.Ends index tag) :
    Exact table view start regions ↔
      ∃ rest, regions = ⟨tag, start + 1, stop⟩ :: rest ∧ Exact table view (stop + 1) rest := by
  constructor
  · intro exact
    -- The line is a marker with a terminator after it, so some region spans it.
    obtain ⟨region, member, spanned⟩ : ∃ region ∈ regions, region.Spans start := by
      by_contra outside
      push Not at outside
      exact exact.complete start tag (Nat.le_refl _) (Nat.lt_trans later inside) outside opens
        stop later inside ends
    obtain rfl := exact.eq_of_spans member spanned opens later ends first
    cases regions with
    | nil => cases member
    | cons head rest =>
        have apart := List.pairwise_cons.mp exact.pairwise
        rcases List.mem_cons.mp member with rfl | further
        · refine ⟨rest, rfl, (List.isChain_cons.mp exact.ordered).2, ?_, ?_, ?_, ?_, ?_, ?_⟩
          · intro region inRest
            exact apart.1 region inRest
          · exact fun region inRest => exact.bounded region (List.mem_cons_of_mem _ inRest)
          · exact fun region inRest => exact.opened region (List.mem_cons_of_mem _ inRest)
          · exact fun region inRest => exact.ended region (List.mem_cons_of_mem _ inRest)
          · exact fun region inRest => exact.unended region (List.mem_cons_of_mem _ inRest)
          · intro index other reached below outside
            refine exact.complete index other (by omega) below ?_
            intro region inAll
            rcases List.mem_cons.mp inAll with rfl | inRest
            · intro spans
              have before : index ≤ stop := spans.2
              omega
            · exact outside region inRest
        · -- A region in front of it would end before the line and start at it or later.
          have headBegun := exact.begun head (by simp)
          have headBounded := exact.bounded head (by simp)
          have headBefore := apart.1 _ further
          simp only [Region.markerLine, Region.terminatorLine] at headBegun headBefore
          omega
  · rintro ⟨rest, rfl, exact⟩
    refine ⟨?_, ?_, ?_, ?_, ?_, ?_, ?_⟩
    · refine List.isChain_cons.mpr ⟨?_, exact.ordered⟩
      intro next isNext
      exact exact.begun next (List.mem_of_mem_head? isNext)
    · intro region member
      rcases List.mem_cons.mp member with rfl | inRest
      · exact Nat.le_refl start
      · have begun := exact.begun region inRest
        omega
    · intro region member
      rcases List.mem_cons.mp member with rfl | inRest
      · exact ⟨by simp, later, inside⟩
      · exact exact.bounded region inRest
    · intro region member
      rcases List.mem_cons.mp member with rfl | inRest
      · exact opens
      · exact exact.opened region inRest
    · intro region member
      rcases List.mem_cons.mp member with rfl | inRest
      · exact ends
      · exact exact.ended region inRest
    · intro region member
      rcases List.mem_cons.mp member with rfl | inRest
      · exact first
      · exact exact.unended region inRest
    · intro index other reached below outside
      have notFirst : ¬ (start ≤ index ∧ index ≤ stop) := outside _ List.mem_cons_self
      exact exact.complete index other (by omega) below
        (fun region inRest => outside region (List.mem_cons_of_mem _ inRest))

end Exact

/-! ## The lines of a view -/

section Lines

variable {table : TagTable} {view : View} {lines : List String}

theorem opens_iff
    (shown : ∀ index < lines.length, view.line index = lines[index]?)
    {index : Nat} (inside : index < lines.length) {tag : String} :
    view.Opens table index tag ↔ Marker.start? table.tags lines[index] = some tag := by
  unfold View.Opens
  rw [shown index inside, List.getElem?_eq_getElem inside]
  simp

theorem ends_iff
    (shown : ∀ index < lines.length, view.line index = lines[index]?)
    {index : Nat} (inside : index < lines.length) {tag : String} :
    view.Ends index tag ↔ Marker.isTerminator lines[index] tag = true := by
  unfold View.Ends
  rw [shown index inside, List.getElem?_eq_getElem inside]
  simp

theorem of_drop_eq_cons
    {start : Nat} {line : String} {rest : List String}
    (cut : line :: rest = lines.drop start) :
    ∃ inside : start < lines.length, lines[start] = line ∧ rest = lines.drop (start + 1) := by
  have inside : start < lines.length := by
    by_contra atEnd
    rw [List.drop_eq_nil_of_le (Nat.le_of_not_lt atEnd)] at cut
    cases cut
  rw [List.drop_eq_getElem_cons inside] at cut
  injection cut with sameLine sameRest
  exact ⟨inside, sameLine.symm, sameRest⟩

/-- The regions of a view are the regions of its lines, and no other list of regions is. -/
theorem exact_iff
    (total : view.lineCount = lines.length)
    (shown : ∀ index < lines.length, view.line index = lines[index]?)
    {start : Nat} {suffix : List String} (cut : suffix = lines.drop start)
    (regions : List Region) :
    Exact table view start regions ↔ regions = regionsFrom table.tags start suffix := by
  fun_induction regionsFrom table.tags start suffix generalizing regions with
  | case1 start =>
      have atEnd : lines.length ≤ start := List.drop_eq_nil_iff.mp cut.symm
      exact Exact.of_le (total ▸ atEnd)
  | case2 start line rest plain inductionHypothesis =>
      obtain ⟨inside, rfl, restCut⟩ := of_drop_eq_cons cut
      rw [← inductionHypothesis restCut]
      apply Exact.skip
      intro tag opens
      rw [opens_iff shown inside, plain] at opens
      cases opens
  | case3 start line rest tag opened unended inductionHypothesis =>
      obtain ⟨inside, rfl, restCut⟩ := of_drop_eq_cons cut
      rw [← inductionHypothesis restCut]
      apply Exact.skip
      intro other opens later after below ends
      rw [opens_iff shown inside, opened] at opens
      obtain rfl := Option.some.inj opens
      rw [total] at below
      have inRest : lines[later] ∈ rest := by
        rw [restCut, List.mem_drop_iff_getElem]
        exact ⟨later - (start + 1), by omega, by congr 1; omega⟩
      have none := List.findIdx?_eq_none_iff.mp unended _ inRest
      rw [ends_iff shown below, none] at ends
      cases ends
  | case4 start line rest tag opened length ended inductionHypothesis =>
      obtain ⟨inside, rfl, rfl⟩ := of_drop_eq_cons cut
      obtain ⟨below, ends, first⟩ := List.findIdx?_eq_some_iff_getElem.mp ended
      rw [List.length_drop] at below
      have stopInside : start + 1 + length < lines.length := by omega
      have restCut : (lines.drop (start + 1)).drop (length + 1) = lines.drop (start + 2 + length) := by
        rw [List.drop_drop]
        congr 1
        omega
      have region :
          Exact table view start regions ↔
            ∃ rest, regions = ⟨tag, start + 1, start + 1 + length⟩ :: rest ∧
              Exact table view (start + 1 + length + 1) rest := by
        apply Exact.cons
        · exact (opens_iff shown inside).mpr opened
        · omega
        · omega
        · rw [ends_iff shown stopInside]
          simpa using ends
        · intro index after before
          rw [ends_iff shown (Nat.lt_trans before stopInside)]
          have notYet := first (index - (start + 1)) (by omega)
          simp only [List.getElem_drop] at notYet
          have same : start + 1 + (index - (start + 1)) = index := by omega
          simpa only [same] using notYet
      have next : start + 2 + length = start + 1 + length + 1 := by omega
      rw [next] at inductionHypothesis restCut ⊢
      rw [region]
      constructor
      · rintro ⟨later, rfl, exact⟩
        rw [(inductionHypothesis restCut later).mp exact]
      · rintro rfl
        exact ⟨_, rfl, (inductionHypothesis restCut _).mpr rfl⟩

theorem exists_readLines
    (whole : ∀ index < view.lineCount, (view.line index).isSome = true) :
    ∃ lines, readLines view.line 0 view.lineCount = .ok lines := by
  cases read : readLines view.line 0 view.lineCount with
  | ok lines => exact ⟨lines, rfl⟩
  | error missing =>
      obtain ⟨absent, below, _⟩ := readLines_eq_error read
      have present := whole missing (by omega)
      rw [absent] at present
      cases present

end Lines

/-- A scan of a buffer that shows all its lines comes to an end, however often it goes back, and
gives the one list of regions that the buffer has. -/
theorem scan_exact
    (table : TagTable) (view : View)
    (whole : ∀ index < view.lineCount, (view.line index).isSome = true) :
    ∃ regions,
      loop table.tags view [] (.seeking 0) = .ok regions ∧
        scan table view = .ok regions ∧
          Exact table view 0 regions ∧
            ∀ other, Exact table view 0 other → other = regions := by
  obtain ⟨lines, read⟩ := exists_readLines whole
  obtain ⟨total, shown⟩ := line_eq_of_readLines read
  have scanned : scan table view = .ok (regionsFrom table.tags 0 lines) := by
    rw [scan, View.lines, read]
    rfl
  have only :
      ∀ regions, Exact table view 0 regions ↔ regions = regionsFrom table.tags 0 lines :=
    exact_iff total shown List.drop_zero.symm
  exact ⟨_, (loop_eq_scan table view).trans scanned, scanned, (only _).mpr rfl,
    fun other => (only other).mp⟩

/-- Two tags, longest first. -/
def twoTags : TagTable := ⟨[("JSON", "json"), ("YAML", "yaml")]⟩

/-- A script with a marker that is never ended and, after it, one that is; in the body of that stands
another one. -/
def unended : Document :=
  ⟨"a.sh", 0, ["cat <<YAML", "cat <<JSON", "cat <<JSON", "[]", " JSON", "echo"]⟩

theorem scan_exact_unended :
    (∀ index < unended.view.lineCount, (unended.view.line index).isSome = true) ∧
      Exact twoTags unended.view 0 [⟨"JSON", 2, 4⟩] := by
  have whole : ∀ index < unended.view.lineCount, (unended.view.line index).isSome = true := by
    decide
  refine ⟨whole, ?_⟩
  obtain ⟨regions, _, scanned, exact, _⟩ := scan_exact twoTags unended.view whole
  have tags : twoTags.tags = ["JSON", "YAML"] := List.mergeSort_of_pairwise (by decide)
  have found : regionsFrom ["JSON", "YAML"] 0 unended.lines = [⟨"JSON", 2, 4⟩] := by
    decide +kernel
  have same : regionsFrom twoTags.tags 0 unended.lines = regions := Except.ok.inj scanned
  rwa [← same, tags, found] at exact

end Scan

end Heredoc
