import Heredoc.Proofs.Engine.Segments
import Heredoc.Proofs.Scan.Concatenation

/-!
# Checking a script that goes on

If no marker of a script is left open, lines that are appended to it are checked as if they stood
alone, and what is found in them is moved down by the length of the script. If one is left open,
what lies in front of the first such marker is still found (`scan_and_check_append`).
-/

namespace Heredoc

/-! ## Moving down twice -/

theorem clamp32_add_clamp32 (bodyStart line : Nat) (lines : UInt32) :
    clamp32 ((clamp32 (line + (clamp32 bodyStart).toNat)).toNat + lines.toNat) =
      clamp32 (line + (clamp32 (bodyStart + lines.toNat)).toNat) := by
  have size : UInt32.size = 4294967296 := rfl
  have fits := lines.toNat_lt_size
  apply UInt32.toNat_inj.mp
  simp only [toNat_clamp32]
  omega

theorem Position.offsetLines_offsetLines (at_ : Position) (bodyStart : Nat) (lines : UInt32) :
    (at_.offsetLines (clamp32 bodyStart)).offsetLines lines =
      at_.offsetLines (clamp32 (bodyStart + lines.toNat)) := by
  simp only [offsetLines, clamp32_add_clamp32]

theorem Range.offsetLines_offsetLines (range : Range) (bodyStart : Nat) (lines : UInt32) :
    (range.offsetLines (clamp32 bodyStart)).offsetLines lines =
      range.offsetLines (clamp32 (bodyStart + lines.toNat)) := by
  simp only [offsetLines, Position.offsetLines_offsetLines]

theorem Range.offsetLines_lineStart (bodyStart : Nat) (lines : UInt32) :
    (Range.lineStart (clamp32 bodyStart)).offsetLines lines =
      Range.lineStart (clamp32 (bodyStart + lines.toNat)) := by
  have size : UInt32.size = 4294967296 := rfl
  have fits := lines.toNat_lt_size
  have sum :
      clamp32 ((clamp32 bodyStart).toNat + lines.toNat) = clamp32 (bodyStart + lines.toNat) := by
    apply UInt32.toNat_inj.mp
    simp only [toNat_clamp32]
    omega
  simp only [offsetLines, Position.offsetLines, lineStart, sum]

/-- The diagnostic so many lines further down. -/
def Diagnostic.offsetLines (diagnostic : Diagnostic) (lines : UInt32) : Diagnostic :=
  { diagnostic with range := diagnostic.range.offsetLines lines }

/-- A finding is moved to its body and the body within the whole; one move does both. -/
theorem LocalDiagnostic.place?_add
    (finding : LocalDiagnostic) (bodyStart : Nat) (lines : UInt32) (key : String) :
    finding.place? (bodyStart + lines.toNat) key =
      (finding.place? bodyStart key).map (·.offsetLines lines) := by
  cases ranged : finding.range with
  | none => simp only [place?, ranged, Option.map_none]
  | some range =>
      simp only [place?, ranged, Option.map_some, Diagnostic.offsetLines,
        Range.offsetLines_offsetLines]

theorem Outcome.diagnostics_add
    (outcome : Outcome) (bodyStart : Nat) (lines : UInt32) (key : String) :
    outcome.diagnostics (bodyStart + lines.toNat) key =
      (outcome.diagnostics bodyStart key).map (·.offsetLines lines) := by
  cases broke : outcome.failure? with
  | some message =>
      rw [diagnostics_of_failure? broke, diagnostics_of_failure? broke, List.map_singleton,
        Diagnostic.offsetLines]
      simp only [Diagnostic.validatorFailed, Range.offsetLines_lineStart]
  | none =>
      cases outcome with
      | findings found =>
          simp only [diagnostics, List.map_filterMap, LocalDiagnostic.place?_add]
      | failed reason => cases broke
      | ioFailed reason => cases broke
      | crashed reason => cases broke

/-! ## Regions of the two parts -/

namespace Engine

variable {engine : Engine} {view other : View} {region : Region}

theorem diagnostics_dispatch_eq_flatMap
    (engine : Engine) (view : View) (regions : List Region) :
    (engine.dispatch view regions).diagnostics =
      regions.flatMap fun region => (engine.dispatchRegion view region).diagnostics := by
  simp only [diagnostics_dispatch, diagnostics_dispatchRegion]

theorem dispatchRegion_congr
    (engine : Engine) (same : other.bodyText region = view.bodyText region) :
    engine.dispatchRegion other region = engine.dispatchRegion view region := by
  rw [dispatchRegion, same, dispatchRegion]

theorem diagnostics_dispatchRegion_offsetLines
    (engine : Engine) {lines : UInt32}
    (same : other.bodyText (region.offsetLines lines.toNat) = view.bodyText region) :
    (engine.dispatchRegion other (region.offsetLines lines.toNat)).diagnostics =
      (engine.dispatchRegion view region).diagnostics.map (·.offsetLines lines) := by
  have sameTag : (region.offsetLines lines.toNat).tag = region.tag := rfl
  have moved : (region.offsetLines lines.toNat).bodyStart = region.bodyStart + lines.toNat := rfl
  rw [dispatchRegion, dispatchRegion, same, sameTag]
  cases engine.validatorFor? region.tag with
  | none => rfl
  | some routed =>
      obtain ⟨key, validator⟩ := routed
      dsimp only
      by_cases tooLarge : (view.bodyText region).utf8ByteSize > engine.settings.maxBytes
      · rw [if_pos tooLarge, if_pos tooLarge, moved]
        simp only [List.map_singleton, Diagnostic.tooLarge, Diagnostic.offsetLines,
          Range.offsetLines_lineStart]
      · rw [if_neg tooLarge, if_neg tooLarge, moved]
        exact (validator.run (view.bodyText region)).diagnostics_add region.bodyStart lines key

end Engine

namespace Document

variable {first second whole : Document} {region : Region}

theorem bodyText_append_left
    (joined : whole.lines = first.lines ++ second.lines)
    (inside : region.bodyEnd ≤ first.lines.length) :
    whole.view.bodyText region = first.view.bodyText region := by
  have insideWhole : region.bodyEnd ≤ whole.lines.length := by
    rw [joined, List.length_append]
    omega
  rw [bodyText_view insideWhole, bodyText_view inside, bodyLines, bodyLines, joined,
    List.take_append_of_le_length inside]

theorem bodyText_append_right
    (joined : whole.lines = first.lines ++ second.lines)
    (inside : region.bodyEnd ≤ second.lines.length) :
    whole.view.bodyText (region.offsetLines first.lines.length) = second.view.bodyText region := by
  have moved :
      (region.offsetLines first.lines.length).bodyEnd = region.bodyEnd + first.lines.length := rfl
  have insideWhole :
      (region.offsetLines first.lines.length).bodyEnd ≤ whole.lines.length := by
    rw [joined, List.length_append, moved]
    omega
  rw [bodyText_view insideWhole, bodyText_view inside, bodyLines, bodyLines, joined,
    Region.offsetLines]
  dsimp only
  rw [Nat.add_comm region.bodyEnd, Nat.add_comm region.bodyStart, List.take_length_add_append,
    List.drop_length_add_append]

/-- The line is a start marker outside all regions that a scan finds. -/
def OpenAt (document : Document) (table : TagTable) (index : Nat) : Prop :=
  (∃ tag, document.view.Opens table index tag) ∧
    ∀ regions, scan table document.view = .ok regions →
      ∀ region ∈ regions, ¬ region.Spans index

theorem openAt_iff (document : Document) (table : TagTable) (index : Nat) :
    document.OpenAt table index ↔ Scan.Unclosed table.tags 0 document.lines index := by
  constructor
  · rintro ⟨⟨tag, line, shown, opened⟩, outside⟩
    rw [document.line_view] at shown
    exact ⟨⟨index, line, tag, (Nat.zero_add index).symm, shown, opened⟩,
      outside _ (document.scan_view table)⟩
  · rintro ⟨⟨offset, line, tag, here, shown, opened⟩, outside⟩
    rw [Nat.zero_add] at here
    subst here
    refine ⟨⟨tag, line, ?_, opened⟩, ?_⟩
    · rw [document.line_view]
      exact shown
    · intro regions found
      rw [document.scan_view table] at found
      cases found
      exact outside

end Document

namespace Engine

variable {engine : Engine} {first second whole : Document}

theorem diagnose_view (engine : Engine) (document : Document) :
    engine.diagnose document.view =
      .ok ((Scan.regionsFrom engine.tags.tags 0 document.lines).flatMap fun region =>
        (engine.dispatchRegion document.view region).diagnostics) := by
  rw [diagnose, validate_view, ← diagnostics_dispatch_eq_flatMap]
  rfl

theorem regionsFrom_of_closed
    (joined : whole.lines = first.lines ++ second.lines)
    (closed : ∀ index, ¬ first.OpenAt engine.tags index) :
    Scan.regionsFrom engine.tags.tags 0 whole.lines =
      Scan.regionsFrom engine.tags.tags 0 first.lines ++
        (Scan.regionsFrom engine.tags.tags 0 second.lines).map
          (·.offsetLines first.lines.length) := by
  have bounds :
      ∀ region ∈ Scan.regionsFrom engine.tags.tags 0 first.lines,
        region.bodyEnd < first.lines.length := by
    intro region member
    have := (Scan.bounds_of_mem_regionsFrom member).2.2
    omega
  have outside :
      ∀ region ∈ Scan.regionsFrom engine.tags.tags 0 first.lines,
        ¬ region.Spans first.lines.length :=
    fun region member spans => absurd (bounds region member) (Nat.not_lt_of_le spans.2)
  have all :
      (Scan.regionsFrom engine.tags.tags 0 first.lines).filter
          (Region.endsBefore first.lines.length) =
        Scan.regionsFrom engine.tags.tags 0 first.lines :=
    List.filter_eq_self.mpr fun region member => decide_eq_true (bounds region member)
  rw [joined, Scan.regionsFrom_append second.lines (Nat.zero_le first.lines.length)
    (Nat.le_of_eq (Nat.zero_add _).symm)
    (fun index _ unclosed => closed index ((first.openAt_iff _ _).mpr unclosed)) outside,
    all, Nat.sub_zero, List.drop_left, ← Scan.regionsFrom_add, Nat.zero_add]

/-- If no marker of the first part is left open, a scan of the whole finds what it finds in the two
parts, and so does a check, with all that concerns the second part moved down by the length of the
first. In any case what lies in front of the first open marker is found. -/
theorem scan_and_check_append
    (engine : Engine) (first second whole : Document)
    (joined : whole.lines = first.lines ++ second.lines) :
    ((∀ index, ¬ first.OpenAt engine.tags index) →
      (∃ regions later,
        scan engine.tags first.view = .ok regions ∧
          scan engine.tags second.view = .ok later ∧
            scan engine.tags whole.view =
              .ok (regions ++ later.map (·.offsetLines first.lines.length))) ∧
      ∀ lines : UInt32, lines.toNat = first.lines.length →
        ∃ diagnostics later,
          engine.diagnose first.view = .ok diagnostics ∧
            engine.diagnose second.view = .ok later ∧
              engine.diagnose whole.view =
                .ok (diagnostics ++ later.map (·.offsetLines lines))) ∧
    ∀ index, first.OpenAt engine.tags index →
      (∀ earlier < index, ¬ first.OpenAt engine.tags earlier) →
        ∃ regions all,
          scan engine.tags first.view = .ok regions ∧
            scan engine.tags whole.view = .ok all ∧
              regions.filter (Region.endsBefore index) <+: all := by
  refine ⟨fun closed => ?_, fun index opened closed => ?_⟩
  · have composed := regionsFrom_of_closed joined closed
    refine ⟨⟨_, _, first.scan_view _, second.scan_view _, ?_⟩, ?_⟩
    · rw [whole.scan_view, composed]
    · intro lines count
      refine ⟨_, _, engine.diagnose_view first, engine.diagnose_view second, ?_⟩
      have left :
          ∀ region ∈ Scan.regionsFrom engine.tags.tags 0 first.lines,
            (engine.dispatchRegion whole.view region).diagnostics =
              (engine.dispatchRegion first.view region).diagnostics := by
        intro region member
        have bounds := Scan.bounds_of_mem_regionsFrom member
        have same : whole.view.bodyText region = first.view.bodyText region :=
          Document.bodyText_append_left joined (by omega)
        rw [engine.dispatchRegion_congr same]
      have right :
          ∀ region ∈ Scan.regionsFrom engine.tags.tags 0 second.lines,
            (engine.dispatchRegion whole.view
                (region.offsetLines first.lines.length)).diagnostics =
              (engine.dispatchRegion second.view region).diagnostics.map (·.offsetLines lines) := by
        intro region member
        have bounds := Scan.bounds_of_mem_regionsFrom member
        have same :
            whole.view.bodyText (region.offsetLines first.lines.length) =
              second.view.bodyText region :=
          Document.bodyText_append_right joined (by omega)
        rw [← count] at same ⊢
        exact engine.diagnostics_dispatchRegion_offsetLines same
      rw [engine.diagnose_view whole, composed, List.flatMap_append, List.flatMap_map,
        List.flatMap_congr left, List.flatMap_congr right, List.map_flatMap]
  · refine ⟨_, _, first.scan_view _, whole.scan_view _, ?_⟩
    have unclosed := (first.openAt_iff _ _).mp opened
    have inside : index ≤ 0 + first.lines.length := by
      obtain ⟨⟨offset, line, tag, here, shown, _⟩, _⟩ := unclosed
      have below := (List.getElem?_eq_some_iff.mp shown).1
      omega
    rw [joined, Scan.regionsFrom_append second.lines (Nat.zero_le index) inside
      (fun earlier before open_ => closed earlier before ((first.openAt_iff _ _).mpr open_))
      unclosed.2]
    exact List.prefix_append _ _

/-- An engine that knows two tags and gives the bodies of one of them back. -/
def echoing : Engine where
  tags := Scan.twoTags
  validators :=
    ⟨[("json", ⟨"json", fun _ => 0, fun body => .findings [.error body (.lineStart 0)]⟩)]⟩
  settings := {}

def closedScript : Document :=
  ⟨"a.sh", 1, ["cat <<JSON", "1", "JSON"]⟩

/-- A script with a marker that is left open between two regions. -/
def openScript : Document :=
  ⟨"b.sh", 1, ["cat <<JSON", "2", "JSON", "cat <<YAML", "cat <<JSON", "3", "JSON"]⟩

/-- After the closed script the open one is checked as if it stood alone; a line that ends the open
marker leaves only the region in front of it. -/
theorem scan_and_check_append_swallowed :
    let both : Document := ⟨"c.sh", 1, closedScript.lines ++ openScript.lines⟩
    let ended : Document := ⟨"d.sh", 1, openScript.lines ++ ["YAML"]⟩
    (∃ later,
      echoing.diagnose openScript.view = .ok later ∧
        echoing.diagnose both.view =
          .ok ([⟨"1", .error, .lineStart 1, "heredoc:json", .malformed⟩] ++
            later.map (·.offsetLines 3))) ∧
      openScript.OpenAt echoing.tags 3 ∧
        ∃ all, scan echoing.tags ended.view = .ok all ∧ [⟨"JSON", 1, 2⟩] <+: all := by
  intro both ended
  have tags : echoing.tags.tags = ["JSON", "YAML"] := List.mergeSort_of_pairwise (by decide)
  have closedRegions :
      Scan.regionsFrom echoing.tags.tags 0 closedScript.lines = [⟨"JSON", 1, 2⟩] := by
    rw [tags]
    decide +kernel
  have openRegions :
      Scan.regionsFrom echoing.tags.tags 0 openScript.lines =
        [⟨"JSON", 1, 2⟩, ⟨"JSON", 5, 6⟩] := by
    rw [tags]
    decide +kernel
  have spans {index : Nat} (below : index < 3) : Region.Spans ⟨"JSON", 1, 2⟩ index :=
    ⟨Nat.zero_le index, Nat.le_of_lt_succ below⟩
  have closed : ∀ index, ¬ closedScript.OpenAt echoing.tags index := by
    intro index opened
    obtain ⟨⟨offset, _, _, here, shown, _⟩, outside⟩ :=
      (closedScript.openAt_iff _ _).mp opened
    have below : offset < 3 := (List.getElem?_eq_some_iff.mp shown).1
    rw [closedRegions] at outside
    exact outside _ List.mem_cons_self (spans (by omega))
  have opened : openScript.OpenAt echoing.tags 3 := by
    refine (openScript.openAt_iff _ _).mpr ⟨⟨3, "cat <<YAML", "YAML", rfl, rfl, ?_⟩, ?_⟩
    · rw [tags]
      decide +kernel
    · rw [openRegions]
      simp [Region.Spans, Region.markerLine, Region.terminatorLine]
  have first : ∀ earlier < 3, ¬ openScript.OpenAt echoing.tags earlier := by
    intro earlier before open_
    have outside := ((openScript.openAt_iff _ _).mp open_).2
    rw [openRegions] at outside
    exact outside _ List.mem_cons_self (spans before)
  obtain ⟨_, composed⟩ :=
    (scan_and_check_append echoing closedScript openScript both rfl).1 closed
  obtain ⟨diagnostics, later, alone, laterAlone, together⟩ := composed 3 rfl
  obtain ⟨regions, all, found, foundAll, stable⟩ :=
    (scan_and_check_append echoing openScript ⟨"e.sh", 1, ["YAML"]⟩ ended rfl).2 3 opened first
  refine ⟨⟨later, laterAlone, ?_⟩, opened, all, foundAll, ?_⟩
  · have echoed :
        diagnostics = [⟨"1", .error, .lineStart 1, "heredoc:json", .malformed⟩] := by
      rw [echoing.diagnose_view, closedRegions] at alone
      rw [← Except.ok.inj alone]
      decide +kernel
    rw [together, echoed]
  · rw [openScript.scan_view, openRegions] at found
    rw [← Except.ok.inj found] at stable
    exact stable

end Engine

end Heredoc
