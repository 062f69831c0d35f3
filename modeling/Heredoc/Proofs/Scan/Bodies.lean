import Heredoc.Proofs.Engine.View
import Heredoc.Proofs.Scan.Exactness
import Heredoc.Proofs.Text.Lines
import Mathlib.Data.List.Pairwise

/-!
# Bodies of a document

The text of a body is made of lines of the document, and as long as no line holds a line feed, the
lines can be read off the text again.
-/

namespace Heredoc

/-- One of the two regions ends in front of the marker of the other. -/
def Region.Apart (region other : Region) : Prop :=
  region.terminatorLine < other.markerLine ∨ other.terminatorLine < region.markerLine

instance : Std.Symm Region.Apart := ⟨fun _ _ => Or.symm⟩

theorem Scan.Exact.apart
    {table : TagTable} {view : View} {start : Nat} {regions : List Region} {region other : Region}
    (exact : Scan.Exact table view start regions)
    (member : region ∈ regions) (otherMember : other ∈ regions) (different : region ≠ other) :
    region.Apart other := by
  have apart : regions.Pairwise Region.Apart := exact.pairwise.imp fun before => Or.inl before
  exact apart.forall member otherMember different

namespace Document

theorem scan_view (table : TagTable) (document : Document) :
    scan table document.view = .ok (Scan.regionsFrom table.tags 0 document.lines) := by
  rw [scan, document.lines_view]
  rfl

theorem exact_of_scan
    {table : TagTable} {document : Document} {regions : List Region}
    (found : scan table document.view = .ok regions) :
    Scan.Exact table document.view 0 regions := by
  have same : Scan.regionsFrom table.tags 0 document.lines = regions := by
    rw [scan_view] at found
    exact Except.ok.inj found
  have total : document.view.lineCount = document.lines.length := document.lineCount_view
  have shown :
      ∀ index < document.lines.length, document.view.line index = document.lines[index]? := by
    intro index _
    rw [document.line_view]
    rfl
  exact (Scan.exact_iff total shown List.drop_zero.symm regions).mpr same.symm

theorem bodyEnd_lt_of_scan
    {table : TagTable} {document : Document} {regions : List Region} {region : Region}
    (found : scan table document.view = .ok regions) (member : region ∈ regions) :
    region.bodyEnd < document.lines.length :=
  ((exact_of_scan found).bounded region member).2.2

/-- The lines of a region. -/
def bodyLines (document : Document) (region : Region) : List String :=
  (document.lines.take region.bodyEnd).drop region.bodyStart

variable {document : Document} {region : Region}

theorem length_bodyLines (inside : region.bodyEnd ≤ document.lines.length) :
    (document.bodyLines region).length = region.bodyLength := by
  rw [bodyLines, List.length_drop, List.length_take, Region.bodyLength, Nat.min_eq_left inside]

theorem getElem?_bodyLines {index : Nat} (inBody : index < region.bodyLength) :
    (document.bodyLines region)[index]? = document.line (region.bodyStart + index) := by
  have below : region.bodyStart + index < region.bodyEnd := by
    rw [Region.bodyLength] at inBody
    omega
  rw [bodyLines, List.getElem?_drop, List.getElem?_take_of_lt below, line]

theorem map_line_lines (inside : region.bodyEnd ≤ document.lines.length) :
    (region.lines.map fun index => (document.line index).getD "") = document.bodyLines region := by
  have total := length_bodyLines inside
  refine List.ext_getElem? fun index => ?_
  by_cases inBody : index < region.bodyLength
  · have below : index < (document.bodyLines region).length := total ▸ inBody
    have shown :
        (document.bodyLines region)[index]? = document.line (region.bodyStart + index) :=
      getElem?_bodyLines inBody
    rw [List.getElem?_eq_getElem below] at shown
    rw [Region.lines, List.map_map, List.getElem?_map, List.getElem?_range inBody,
      List.getElem?_eq_getElem below, Option.map_some, Function.comp_apply, ← shown,
      Option.getD_some]
  · have beyond : (document.bodyLines region).length ≤ index := total ▸ Nat.le_of_not_lt inBody
    rw [List.getElem?_eq_none beyond, List.getElem?_eq_none]
    rw [Region.lines, List.map_map, List.length_map, List.length_range]
    exact Nat.le_of_not_lt inBody

theorem bodyText_view (inside : region.bodyEnd ≤ document.lines.length) :
    document.view.bodyText region = Text.joinLines (document.bodyLines region) := by
  rw [View.bodyText, document.line_view, map_line_lines inside]

theorem IsCut.splitLines_bodyText
    (cut : document.IsCut) (inside : region.bodyEnd ≤ document.lines.length)
    (nonempty : region.isEmpty = false) :
    Text.splitLines (document.view.bodyText region).toList =
      (document.bodyLines region).map String.toList := by
  have someLine : 0 < (document.bodyLines region).length := by
    rw [length_bodyLines inside]
    exact Nat.pos_of_ne_zero (by simpa [Region.isEmpty] using nonempty)
  have unbroken : ∀ line ∈ document.bodyLines region, '\n' ∉ line.toList := by
    intro line member
    exact cut line (List.mem_of_mem_take (List.mem_of_mem_drop member))
  rw [bodyText_view inside]
  exact Text.splitLines_joinLines (List.ne_nil_of_length_pos someLine) unbroken

end Document

end Heredoc
