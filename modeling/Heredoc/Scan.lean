import Heredoc.Buffer
import Heredoc.Marker
import Heredoc.Region
import Heredoc.Tag

/-!
# Scanning

A scan lists the terminated heredoc regions of a buffer in order. A start marker without a
terminator after it opens nothing, and the search goes on with the next line. A buffer that
cannot show a line it claims to have is not scanned at all.
-/

namespace Heredoc

/-- The first line below the claimed count that a buffer cannot show. -/
structure MissingLine where
  buffer : BufferId
  index : Nat
  lineCount : Nat
deriving DecidableEq, Repr

/-- The wording of a missing line. -/
def MissingLine.message (missing : MissingLine) : String :=
  "buffer " ++ missing.buffer ++ " reports " ++ toString missing.lineCount ++
    " lines but line " ++ toString missing.index ++ " is missing"

namespace Scan

/-- The lines from `index` on, `count` of them, or the first index without a line. -/
def readLines (line : Nat → Option String) (index : Nat) : Nat → Except Nat (List String)
  | 0 => .ok []
  | count + 1 =>
      match line index with
      | none => .error index
      | some text => (readLines line (index + 1) count).map (text :: ·)

/-- The regions that open in these lines, the first of which has number `index`. -/
def regionsFrom (tags : List String) (index : Nat) : List String → List Region
  | [] => []
  | line :: rest =>
      match Marker.start? tags line with
      | none => regionsFrom tags (index + 1) rest
      | some tag =>
          match rest.findIdx? (Marker.isTerminator · tag) with
          | none => regionsFrom tags (index + 1) rest
          | some length =>
              ⟨tag, index + 1, index + 1 + length⟩ ::
                regionsFrom tags (index + 2 + length) (rest.drop (length + 1))
termination_by lines => lines.length
decreasing_by all_goals simp; try omega

end Scan

/-- The lines of a view, all present. -/
def View.lines (view : View) : Except MissingLine (List String) :=
  match Scan.readLines view.line 0 view.lineCount with
  | .ok lines => .ok lines
  | .error index => .error ⟨view.id, index, view.lineCount⟩

/-- All terminated regions of a view, in order. -/
def scan (table : TagTable) (view : View) : Except MissingLine (List Region) :=
  view.lines.map (Scan.regionsFrom table.tags 0)

/-- The body of a region, its lines joined by line feeds; a missing line counts as empty. -/
def View.bodyText (view : View) (region : Region) : String :=
  Text.joinLines (region.lines.map fun index => (view.line index).getD "")

end Heredoc
