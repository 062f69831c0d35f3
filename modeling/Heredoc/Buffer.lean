import Heredoc.Text.Lines

/-!
# Buffers

A `View` is what a scan sees of a buffer: a line count and the lines, which need not agree. A
`Document` owns its lines and a version that grows with every edit.
-/

namespace Heredoc

/-- The name of a buffer. -/
abbrev BufferId := String

/-- A fixed view of a buffer; `line` may answer nothing below `lineCount`. -/
structure View where
  id : BufferId
  version : Nat
  lineCount : Nat
  line : Nat → Option String

namespace View

/-- The same lines under another line count. -/
def withCount (view : View) (count : Nat) : View :=
  { view with lineCount := count }

/-- The same view with some lines missing. -/
def withHoles (view : View) (holes : List Nat) : View :=
  { view with line := fun index => if index ∈ holes then none else view.line index }

end View

/-- A versioned buffer of lines. -/
structure Document where
  id : BufferId
  version : Nat
  lines : List String
deriving DecidableEq, Repr, Inhabited

namespace Document

/-- A document cut from text at line feeds. -/
def ofText (id : BufferId) (version : Nat) (text : String) : Document :=
  ⟨id, version, Text.documentLines text⟩

/-- A line of the document. -/
def line (document : Document) (index : Nat) : Option String :=
  document.lines[index]?

/-- The honest view of a document. -/
def view (document : Document) : View :=
  let lines := document.lines.toArray
  { id := document.id
    version := document.version
    lineCount := lines.size
    line := fun index => lines[index]? }

@[simp] theorem lineCount_view (document : Document) :
    document.view.lineCount = document.lines.length := rfl

@[simp] theorem line_view (document : Document) : document.view.line = document.line := by
  funext index
  simp [view, line]

/-- Puts new text in place of all lines. -/
def setText (document : Document) (text : String) : Document :=
  { document with lines := Text.documentLines text, version := document.version + 1 }

/-- Replaces one line; an index past the end changes nothing, not even the version. -/
def replaceLine (document : Document) (index : Nat) (text : String) : Document :=
  if index < document.lines.length then
    { document with lines := document.lines.set index text, version := document.version + 1 }
  else document

/-- Inserts a line before `index`, or at the end if there is no such line. -/
def insertLine (document : Document) (index : Nat) (text : String) : Document :=
  { document with
    lines := document.lines.take index ++ text :: document.lines.drop index
    version := document.version + 1 }

end Document

/-- A change of a document. -/
inductive Edit where
  | setText (text : String)
  | replaceLine (index : Nat) (text : String)
  | insertLine (index : Nat) (text : String)
deriving DecidableEq, Repr

/-- Carries out a change. -/
def Edit.apply (document : Document) : Edit → Document
  | .setText text => document.setText text
  | .replaceLine index text => document.replaceLine index text
  | .insertLine index text => document.insertLine index text

end Heredoc
