import Heredoc.Command.Basic
import Heredoc.Engine
import Heredoc.Workspace

/-!
# Carrying out commands

What a command prints and how it ends. A check prints nothing unless all its files could be read;
a scan prints what it has found up to the first file that could not.
-/

namespace Heredoc

/-- Why a command fails. -/
inductive CommandError where
  | settings (error : Settings.ResolveError)
  | unreadable (path : Path) (error : ReadError)
  | unscannable (path : Path) (missing : MissingLine)
  | unwatchable (path : Path) (error : ReadError)
deriving DecidableEq, Repr

/-- The wording of a settings file's fault. -/
def Settings.LoadError.message (error : Settings.LoadError) : String :=
  match error.fault with
  | .unreadable cause => "failed to read " ++ error.path.text ++ ": " ++ cause.message
  | .malformed => "invalid config in " ++ error.path.text
  | .content message => "invalid config in " ++ error.path.text ++ ": " ++ message

/-- The wording of a failure. -/
def CommandError.message : CommandError → String
  | .settings error => error.context ++ ": " ++ error.cause.message
  | .unreadable path error => "failed to read " ++ path.text ++ ": " ++ error.message
  | .unscannable path missing => "failed to scan " ++ path.text ++ ": " ++ missing.message
  | .unwatchable path error => "cannot watch " ++ path.text ++ ": " ++ error.message

/-- What a command printed, and the exit status or the failure it ended with. -/
structure Finished where
  output : String
  result : Except CommandError Nat

/-- Lines as printed. -/
def printLines (lines : List String) : String :=
  String.join (lines.map (· ++ "\n"))

/-- What commands work with: files, the path of the standard settings file, and how the
interpreter of some settings is run on a body. -/
structure Surroundings where
  files : Files
  standard : Path
  launch : Settings → String → Option Python.Run

namespace Surroundings

/-- The engine with the standard tags and validators. -/
def engine (surroundings : Surroundings) (settings : Settings) : Engine :=
  ⟨.standard, .standard (surroundings.launch settings), settings⟩

/-- The document of a file. -/
def readDocument (surroundings : Surroundings) (path : Path) : Except CommandError Document :=
  match surroundings.files.readText path with
  | .error error => .error (.unreadable path error)
  | .ok text => .ok (.ofText path.text 0 text)

/-! ## Check -/

/-- Checks one file. -/
def checkFile (surroundings : Surroundings) (engine : Engine) (path : Path) :
    Except CommandError FileReport := do
  let document ← surroundings.readDocument path
  match engine.validate document.view with
  | .error missing => throw (.unscannable path missing)
  | .ok dispatched => return ⟨path.text, dispatched.diagnostics⟩

/-- The reports on all files, or the first failure. -/
def checkFiles (surroundings : Surroundings) (request : Settings.Request) (paths : List Path) :
    Except CommandError (List FileReport) :=
  match request.resolve surroundings.files surroundings.standard with
  | .error error => .error (.settings error)
  | .ok settings => paths.mapM (surroundings.checkFile (surroundings.engine settings))

end Surroundings

/-- Reports as printed. -/
def Format.print (reports : List FileReport) : Format → String
  | .text => printLines (reports.flatMap FileReport.lines)
  | .json => (Json.Value.array (reports.map FileReport.toJson)).print 0 ++ "\n"

namespace Surroundings

/-- Checks files; the status is one if there is an error among the diagnostics. -/
def check (surroundings : Surroundings) (request : Settings.Request) (format : Format)
    (paths : List Path) : Finished :=
  match surroundings.checkFiles request paths with
  | .error error => ⟨"", .error error⟩
  | .ok reports =>
      ⟨format.print reports, .ok (if reports.any FileReport.hasErrors then 1 else 0)⟩

/-! ## Scan -/

/-- The lines for the regions of one file. -/
def scanFile (surroundings : Surroundings) (path : Path) : Except CommandError (List String) := do
  let document ← surroundings.readDocument path
  match Heredoc.scan .standard document.view with
  | .error missing => throw (.unscannable path missing)
  | .ok regions =>
      return regions.map fun region =>
        regionLine path.text region ((TagTable.standard.lookup region.tag).getD "?")

/-- Lists the regions of files. -/
def scan (surroundings : Surroundings) : List Path → Finished
  | [] => ⟨"", .ok 0⟩
  | path :: rest =>
      match surroundings.scanFile path with
      | .error error => ⟨"", .error error⟩
      | .ok lines =>
          let later := surroundings.scan rest
          { later with output := printLines lines ++ later.output }

/-! ## Watch -/

/-- Opens the scripts at a path; those that cannot be read are left out. -/
def openRoot (surroundings : Surroundings) (workspace : Workspace) (root : Path) :
    Except CommandError Workspace :=
  match surroundings.files.locate root with
  | .error error => .error (.unwatchable root error)
  | .ok _ =>
      .ok ((Script.find surroundings.files root).foldl
        (fun workspace (path : Path) =>
          match surroundings.files.readText path with
          | .ok text => workspace.openPath path text
          | .error _ => workspace)
        workspace)

/-- The workspace in which watching starts. -/
def openRoots (surroundings : Surroundings) (request : Settings.Request) (roots : List Path) :
    Except CommandError Workspace :=
  match request.resolve surroundings.files surroundings.standard with
  | .error error => .error (.settings error)
  | .ok settings =>
      roots.foldlM surroundings.openRoot
        (.start (.start (surroundings.engine settings) settings.debounce))

/-- Carries out a command. Watching goes on until it is interrupted, which is no failure. -/
def run (surroundings : Surroundings) : Command → Finished
  | .check request format paths => surroundings.check request format paths
  | .scan paths => surroundings.scan paths
  | .watch request roots =>
      ⟨"", (surroundings.openRoots request roots).map fun _ => 0⟩

end Surroundings

end Heredoc
