import Heredoc.Proofs.Scan.Bodies

/-!
# From the lines of a body to the lines of the script

A finding that stays within the lines of its body is carried to the script by the number of the
first body line alone. Main statement: what it points at in the script is what it points at in the
body, and findings in different bodies are never on one line (`coordinates_faithful`).
-/

namespace Heredoc

theorem toNat_clamp32_of_lt {n : Nat} (fits : n < UInt32.size) : (clamp32 n).toNat = n := by
  rw [toNat_clamp32]
  omega

namespace Range

/-- What a range takes of the line with this number. -/
def part (range : Range) (index : Nat) (line : List Char) : List Char :=
  let kept := if index = range.stop.line.toNat then line.take range.stop.character.toNat else line
  if index = range.start.line.toNat then kept.drop range.start.character.toNat else kept

/-- The text from the start of a range up to its stop, line by line. -/
def excerpt (range : Range) (lines : List (List Char)) : List (List Char) :=
  (List.range' range.start.line.toNat
      (range.stop.line.toNat + 1 - range.start.line.toNat)).map
    fun index => range.part index (lines.getD index [])

/-- An end of the range is on the line, or the line is between the ends. -/
def Touches (range : Range) (line : Nat) : Prop :=
  min range.start.line.toNat range.stop.line.toNat ≤ line ∧
    line ≤ max range.start.line.toNat range.stop.line.toNat

variable {range : Range} {lines : UInt32}

theorem part_offsetLines
    (startFits : range.start.line.toNat + lines.toNat < UInt32.size)
    (stopFits : range.stop.line.toNat + lines.toNat < UInt32.size)
    (index : Nat) (line : List Char) :
    (range.offsetLines lines).part (lines.toNat + index) line = range.part index line := by
  have start := range.start.toNat_line_offsetLines lines startFits
  have stop := range.stop.toNat_line_offsetLines lines stopFits
  have atStart :
      lines.toNat + index = range.start.line.toNat + lines.toNat ↔
        index = range.start.line.toNat := by omega
  have atStop :
      lines.toNat + index = range.stop.line.toNat + lines.toNat ↔
        index = range.stop.line.toNat := by omega
  simp only [part, offsetLines, start, stop, atStart, atStop, Position.character_offsetLines]

/-- A range that is moved down takes from the script what it takes from a part of the script that
begins so many lines further down. -/
theorem excerpt_offsetLines
    (startFits : range.start.line.toNat + lines.toNat < UInt32.size)
    (stopFits : range.stop.line.toNat + lines.toNat < UInt32.size)
    {script body : List (List Char)}
    (same : ∀ index ≤ range.stop.line.toNat, script[lines.toNat + index]? = body[index]?) :
    (range.offsetLines lines).excerpt script = range.excerpt body := by
  have start := range.start.toNat_line_offsetLines lines startFits
  have stop := range.stop.toNat_line_offsetLines lines stopFits
  have count :
      range.stop.line.toNat + lines.toNat + 1 - (range.start.line.toNat + lines.toNat) =
        range.stop.line.toNat + 1 - range.start.line.toNat := by omega
  rw [excerpt, excerpt, offsetLines, start, stop, count, Nat.add_comm range.start.line.toNat,
    ← List.map_add_range', List.map_map]
  refine List.map_congr_left fun index member => ?_
  have reached : index ≤ range.stop.line.toNat := by
    have := List.mem_range'_1.mp member
    omega
  have shown : script.getD (lines.toNat + index) [] = body.getD index [] := by
    rw [List.getD_eq_getElem?_getD, same index reached, List.getD_eq_getElem?_getD]
  rw [Function.comp_apply, shown]
  exact part_offsetLines startFits stopFits index _

end Range

/-- The finding stays within so many lines. -/
def LocalDiagnostic.Within (finding : LocalDiagnostic) (range : Range) (length : Nat) : Prop :=
  finding.range = some range ∧
    range.start.line.toNat < length ∧ range.stop.line.toNat < length

/-- The diagnostic says of the script what the finding says of the body of the region. -/
structure Document.Carries (document : Document) (region : Region) (finding : LocalDiagnostic)
    (range : Range) (placed : Diagnostic) : Prop where
  start_line : placed.range.start.line.toNat = region.bodyStart + range.start.line.toNat
  stop_line : placed.range.stop.line.toNat = region.bodyStart + range.stop.line.toNat
  start_character : placed.range.start.character = range.start.character
  stop_character : placed.range.stop.character = range.stop.character
  message : placed.message = finding.message
  severity : placed.severity = finding.severity
  excerpt :
    placed.range.excerpt (document.lines.map String.toList) =
      range.excerpt (Text.splitLines (document.view.bodyText region).toList)

namespace Document

variable {document : Document} {region : Region} {finding : LocalDiagnostic} {range : Range}

theorem IsCut.exists_carries
    (cut : document.IsCut) (short : document.lines.length < UInt32.size)
    (inside : region.bodyEnd ≤ document.lines.length)
    (within : finding.Within range region.bodyLength) (key : String) :
    ∃ placed,
      finding.place? region.bodyStart key = some placed ∧
        document.Carries region finding range placed := by
  obtain ⟨ranged, startWithin, stopWithin⟩ := within
  rw [Region.bodyLength] at startWithin stopWithin
  have shift : (clamp32 region.bodyStart).toNat = region.bodyStart :=
    toNat_clamp32_of_lt (by omega)
  have startFits : range.start.line.toNat + (clamp32 region.bodyStart).toNat < UInt32.size := by
    omega
  have stopFits : range.stop.line.toNat + (clamp32 region.bodyStart).toNat < UInt32.size := by
    omega
  have nonempty : region.isEmpty = false := by
    refine decide_eq_false ?_
    rw [Region.bodyLength]
    omega
  have startLine := range.start.toNat_line_offsetLines _ startFits
  have stopLine := range.stop.toNat_line_offsetLines _ stopFits
  rw [shift, Nat.add_comm] at startLine stopLine
  have sameLines :
      ∀ index ≤ range.stop.line.toNat,
        (document.lines.map String.toList)[(clamp32 region.bodyStart).toNat + index]? =
          (Text.splitLines (document.view.bodyText region).toList)[index]? := by
    intro index reached
    have inBody : index < region.bodyLength := by
      rw [Region.bodyLength]
      omega
    rw [shift, cut.splitLines_bodyText inside nonempty, List.getElem?_map, List.getElem?_map,
      getElem?_bodyLines inBody, line]
  refine ⟨_, by rw [LocalDiagnostic.place?, ranged, Option.map_some], ?_⟩
  exact
    { start_line := startLine
      stop_line := stopLine
      start_character := rfl
      stop_character := rfl
      message := rfl
      severity := rfl
      excerpt := Range.excerpt_offsetLines startFits stopFits sameLines }

theorem Carries.inside
    {placed : Diagnostic} {line : Nat}
    (carried : document.Carries region finding range placed)
    (within : finding.Within range region.bodyLength)
    (touched : placed.range.Touches line) :
    region.bodyStart ≤ line ∧ line < region.bodyEnd := by
  obtain ⟨_, startWithin, stopWithin⟩ := within
  obtain ⟨above, below⟩ := touched
  rw [Region.bodyLength] at startWithin stopWithin
  rw [carried.start_line, carried.stop_line] at above below
  omega

end Document

/-- The lines of a body can be read off its text, a finding within a body says of the script what it
says of the body, and findings within different bodies are on different lines. -/
theorem coordinates_faithful
    (table : TagTable) (document : Document) (regions : List Region)
    (cut : document.IsCut) (short : document.lines.length < UInt32.size)
    (found : scan table document.view = .ok regions) :
    (∀ region ∈ regions, region.isEmpty = false →
      Text.splitLines (document.view.bodyText region).toList =
          (document.bodyLines region).map String.toList ∧
        (∀ index < region.bodyLength,
          ∃ line,
            document.line (region.bodyStart + index) = some line ∧
              (Text.splitLines (document.view.bodyText region).toList)[index]? =
                some line.toList) ∧
        ∀ (key : String) (finding : LocalDiagnostic) (range : Range),
          finding.Within range region.bodyLength →
            ∃ placed,
              finding.place? region.bodyStart key = some placed ∧
                document.Carries region finding range placed) ∧
    (∀ region ∈ regions, ∀ other ∈ regions, region ≠ other →
      ∀ (key otherKey : String) (finding otherFinding : LocalDiagnostic)
        (range otherRange : Range) (placed otherPlaced : Diagnostic),
        finding.Within range region.bodyLength →
        otherFinding.Within otherRange other.bodyLength →
        finding.place? region.bodyStart key = some placed →
        otherFinding.place? other.bodyStart otherKey = some otherPlaced →
          ∀ line, placed.range.Touches line → ¬ otherPlaced.range.Touches line) ∧
    ∀ id version text,
      (Document.ofText id version text).IsCut ∧ (document.setText text).IsCut := by
  have exact := Document.exact_of_scan found
  have inside : ∀ region ∈ regions, region.bodyEnd ≤ document.lines.length :=
    fun region member => Nat.le_of_lt (Document.bodyEnd_lt_of_scan found member)
  refine ⟨?_, ?_, fun id version text =>
    ⟨Document.isCut_ofText id version text, document.isCut_setText text⟩⟩
  · intro region member nonempty
    have pieces := cut.splitLines_bodyText (inside region member) nonempty
    refine ⟨pieces, ?_, fun key finding range within =>
      cut.exists_carries short (inside region member) within key⟩
    intro index inBody
    have below : index < (document.bodyLines region).length := by
      rw [Document.length_bodyLines (inside region member)]
      exact inBody
    refine ⟨(document.bodyLines region)[index], ?_, ?_⟩
    · rw [← Document.getElem?_bodyLines inBody, List.getElem?_eq_getElem below]
    · rw [pieces, List.getElem?_map, List.getElem?_eq_getElem below, Option.map_some]
  · intro region member other otherMember different key otherKey finding otherFinding range
      otherRange placed otherPlaced within otherWithin put otherPut line touched otherTouched
    obtain ⟨placed', put', carried⟩ :=
      cut.exists_carries short (inside region member) within key
    obtain ⟨otherPlaced', otherPut', otherCarried⟩ :=
      cut.exists_carries short (inside other otherMember) otherWithin otherKey
    obtain rfl : placed = placed' := Option.some.inj (put.symm.trans put')
    obtain rfl : otherPlaced = otherPlaced' := Option.some.inj (otherPut.symm.trans otherPut')
    have here := carried.inside within touched
    have there := otherCarried.inside otherWithin otherTouched
    -- One of the two regions ends in front of the marker of the other.
    rcases exact.apart member otherMember different with before | after
    · rw [Region.terminatorLine, Region.markerLine] at before
      omega
    · rw [Region.terminatorLine, Region.markerLine] at after
      omega

/-- Two bodies, the first of them with a line that ended in a carriage return and an empty one. -/
def twoBodies : Document :=
  .ofText "a.sh" 1 "cat <<JSON\n[1\r\n\n]\nJSON\ncat <<YAML\né: ü\nYAML\n"

/-- A finding over all lines of the first body and one on the only line of the second. -/
theorem coordinates_faithful_twoBodies :
    let all : Range := ⟨⟨0, 1⟩, ⟨2, 1⟩⟩
    let one : Range := ⟨⟨0, 3⟩, ⟨0, 4⟩⟩
    (twoBodies.IsCut ∧ twoBodies.lines.length < UInt32.size) ∧
      scan Scan.twoTags twoBodies.view = .ok [⟨"JSON", 1, 4⟩, ⟨"YAML", 6, 7⟩] ∧
      Text.splitLines (twoBodies.view.bodyText ⟨"JSON", 1, 4⟩).toList =
        [['[', '1'], [], [']']] ∧
      (∃ placed,
        (LocalDiagnostic.error "long" all).place? 1 "json" = some placed ∧
          placed.range.excerpt (twoBodies.lines.map String.toList) = [['1'], [], [']']]) ∧
      (∃ placed,
        (LocalDiagnostic.error "short" one).place? 6 "yaml" = some placed ∧
          placed.range.excerpt (twoBodies.lines.map String.toList) = [['ü']]) ∧
      ¬ (all.offsetLines 1).Touches 6 := by
  intro all one
  have cut : twoBodies.IsCut := Document.isCut_ofText _ _ _
  have short : twoBodies.lines.length < UInt32.size := by decide +kernel
  have found : scan Scan.twoTags twoBodies.view = .ok [⟨"JSON", 1, 4⟩, ⟨"YAML", 6, 7⟩] := by
    have tags : Scan.twoTags.tags = ["JSON", "YAML"] := List.mergeSort_of_pairwise (by decide)
    rw [Document.scan_view, tags]
    decide +kernel
  have withinFirst :
      (LocalDiagnostic.error "long" all).Within all (Region.bodyLength ⟨"JSON", 1, 4⟩) :=
    ⟨rfl, by decide, by decide⟩
  have withinSecond :
      (LocalDiagnostic.error "short" one).Within one (Region.bodyLength ⟨"YAML", 6, 7⟩) :=
    ⟨rfl, by decide, by decide⟩
  obtain ⟨faithful, disjoint, _⟩ :=
    coordinates_faithful Scan.twoTags twoBodies _ cut short found
  obtain ⟨firstLines, _, first⟩ := faithful ⟨"JSON", 1, 4⟩ (by simp) rfl
  obtain ⟨_, _, second⟩ := faithful ⟨"YAML", 6, 7⟩ (by simp) rfl
  obtain ⟨placed, put, carried⟩ := first "json" _ all withinFirst
  obtain ⟨other, otherPut, otherCarried⟩ := second "yaml" _ one withinSecond
  refine ⟨⟨cut, short⟩, found, ?_, ⟨placed, put, ?_⟩, ⟨other, otherPut, ?_⟩, ?_⟩
  · rw [firstLines]
    decide +kernel
  · rw [carried.excerpt]
    decide +kernel
  · rw [otherCarried.excerpt]
    decide +kernel
  · intro touched
    refine disjoint ⟨"YAML", 6, 7⟩ (by simp) ⟨"JSON", 1, 4⟩ (by simp) (by decide) "yaml" "json"
      _ _ one all other placed withinSecond withinFirst otherPut put 6 ?_ ?_
    · rw [Range.Touches, otherCarried.start_line, otherCarried.stop_line]
      decide
    · obtain rfl := Option.some.inj put
      exact touched

end Heredoc
