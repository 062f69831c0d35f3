import Heredoc.Engine

/-!
# What an engine reads of a view

A document shows all the lines it has, so that an engine never fails on it; a view that claims a
line more than there are makes it fail. What the engine finds in a document depends on the lines
alone, not on the name or on the version of the document.
-/

namespace Heredoc

/-- The diagnostics of a view. -/
def Engine.diagnose (engine : Engine) (view : View) : Except MissingLine (List Diagnostic) :=
  (engine.validate view).map Dispatched.diagnostics

/-! ## Reading all lines -/

theorem Scan.readLines_getElem?
    (lines : List String) :
    ∀ (count index : Nat),
      index + count = lines.length →
        Scan.readLines (lines[·]?) index count = .ok (lines.drop index)
  | 0, index, total => by
      have atEnd : lines.length ≤ index := by omega
      rw [Scan.readLines, List.drop_eq_nil_of_le atEnd]
  | count + 1, index, total => by
      have inside : index < lines.length := by omega
      have rest :=
        Scan.readLines_getElem? lines count (index + 1) (by omega)
      rw [Scan.readLines, List.getElem?_eq_getElem inside, rest,
        List.drop_eq_getElem_cons inside]
      rfl

theorem Scan.readLines_getElem?_of_lt
    (lines : List String) :
    ∀ (count index : Nat),
      index ≤ lines.length → lines.length < index + count →
        Scan.readLines (lines[·]?) index count = .error lines.length
  | 0, index, _, beyond => by omega
  | count + 1, index, reached, beyond => by
      rcases Nat.lt_or_ge index lines.length with inside | atEnd
      · have rest :=
          Scan.readLines_getElem?_of_lt lines count (index + 1) inside (by omega)
        rw [Scan.readLines, List.getElem?_eq_getElem inside, rest]
        rfl
      · have last : index = lines.length := Nat.le_antisymm reached atEnd
        rw [Scan.readLines, List.getElem?_eq_none atEnd, last]

/-- A document shows all its lines. -/
theorem Document.lines_view (document : Document) :
    document.view.lines = .ok document.lines := by
  have all :=
    Scan.readLines_getElem? document.lines document.lines.length 0 (by omega)
  have shown : document.view.line = (document.lines[·]?) := document.line_view
  rw [View.lines, shown, document.lineCount_view, all, List.drop_zero]

/-- A document cannot show a line more than it has. -/
theorem Document.lines_withCount_succ (document : Document) :
    ∃ missing, (document.view.withCount (document.lines.length + 1)).lines = .error missing := by
  have short :=
    Scan.readLines_getElem?_of_lt document.lines (document.lines.length + 1) 0
      (Nat.zero_le _) (by omega)
  have shown :
      (document.view.withCount (document.lines.length + 1)).line = (document.lines[·]?) :=
    document.line_view
  have claimed :
      (document.view.withCount (document.lines.length + 1)).lineCount =
        document.lines.length + 1 := rfl
  rw [View.lines, shown, claimed, short]
  exact ⟨_, rfl⟩

/-! ## Only the lines count -/

theorem View.bodyText_congr
    {view other : View}
    (same : view.line = other.line) (region : Region) :
    view.bodyText region = other.bodyText region := by
  rw [View.bodyText, View.bodyText, same]

theorem Engine.dispatch_congr
    (engine : Engine) {view other : View}
    (same : view.line = other.line) (regions : List Region) :
    engine.dispatch view regions = engine.dispatch other regions := by
  have each : engine.dispatchRegion view = engine.dispatchRegion other := by
    funext region
    simp only [Engine.dispatchRegion, View.bodyText_congr same]
  rw [Engine.dispatch, Engine.dispatch, each]

/-- What an engine makes of a document. -/
theorem Engine.validate_view (engine : Engine) (document : Document) :
    engine.validate document.view =
      .ok (engine.dispatch document.view
        (Scan.regionsFrom engine.tags.tags 0 document.lines)) := by
  rw [Engine.validate, scan, document.lines_view]
  rfl

/-- An engine never fails on a document. -/
theorem Engine.exists_diagnose_view (engine : Engine) (document : Document) :
    ∃ diagnostics, engine.diagnose document.view = .ok diagnostics := by
  rw [Engine.diagnose, engine.validate_view document]
  exact ⟨_, rfl⟩

/-- Documents with the same lines have the same diagnostics. -/
theorem Engine.diagnose_view_congr
    (engine : Engine) {document other : Document}
    (same : document.lines = other.lines) :
    engine.diagnose document.view = engine.diagnose other.view := by
  have sameLine : document.view.line = other.view.line := by
    rw [document.line_view, other.line_view]
    funext index
    rw [Document.line, Document.line, same]
  rw [Engine.diagnose, Engine.diagnose, engine.validate_view document,
    engine.validate_view other, engine.dispatch_congr sameLine, same]

end Heredoc
