import Heredoc.FileReport
import Heredoc.Schedule.Scheduler
import Heredoc.Script

/-!
# Workspaces

The scripts that are open, and the scheduler that checks them. A path is known by its components;
its buffer has the text of the path as its name. Paths that are no text are not opened.
-/

namespace Heredoc

/-- The scheduler, and for each open path, a text, the buffer and the source that serve it. -/
structure Workspace where
  scheduler : Scheduler
  opened : Assoc (List Component) (BufferId × Nat)

namespace Workspace

/-- The workspace in which nothing is open. -/
def start (scheduler : Scheduler) : Workspace := ⟨scheduler, []⟩

/-- Whether a path is open. -/
def isOpen (workspace : Workspace) (path : Path) : Bool :=
  workspace.opened.contains path.components

/-- The number of open paths. -/
def size (workspace : Workspace) : Nat := workspace.opened.length

/-- Opens a path with a text. -/
def openPath (workspace : Workspace) (path : Path) (text : String) : Workspace :=
  let id := path.text
  let (number, scheduler) :=
    workspace.scheduler.addSource id ⟨.ofText id 0 text, false⟩
  { scheduler := scheduler.notify id number
    opened := workspace.opened.put path.components (id, number) }

/-- Takes in the text that a path has now: an open path whose lines changed is checked again, and
a path that turns out to be a script is opened. -/
def reload (workspace : Workspace) (path : Path) (text : String) : Workspace :=
  match workspace.opened.get? path.components with
  | none => if Script.isScript path text then workspace.openPath path text else workspace
  | some (id, number) =>
      let document := ((workspace.scheduler.track id).source number).document
      if document.lines = Text.documentLines text then workspace
      else
        let edited := workspace.scheduler.modifySource id number fun source =>
          { source with document := source.document.setText text }
        { workspace with scheduler := edited.notify id number }

/-- Closes a path if it is open. -/
def close (workspace : Workspace) (path : Path) : Workspace :=
  if workspace.isOpen path then
    { scheduler := workspace.scheduler.close path.text
      opened := workspace.opened.erase path.components }
  else workspace

/-- Takes in what a path leads to now: a missing file is closed, and what cannot be read otherwise
is ignored. -/
def refresh (workspace : Workspace) (files : Files) (path : Path) : Workspace :=
  match files.readText path with
  | .ok text => workspace.reload path text
  | .error .notFound => workspace.close path
  | .error _ => workspace

/-- Moves the clock. -/
def advance (workspace : Workspace) (milliseconds : Nat) : Workspace :=
  { workspace with scheduler := workspace.scheduler.advance milliseconds }

end Workspace

/-- The lines that are printed when a pass publishes. -/
def Report.lines (report : Report) : List String :=
  match report.outcome with
  | .published [] => [report.buffer ++ ": ok"]
  | .published diagnostics => diagnostics.map (diagnosticLine report.buffer)
  | _ => []

end Heredoc
