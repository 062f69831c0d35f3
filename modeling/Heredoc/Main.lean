import Heredoc.Command.Arguments
import Heredoc.Command.Run

/-!
# The program

Reads the files that a command names, carries it out and prints. Watching looks at the files again
and again. No interpreter is run from here, so that Python bodies are left alone.
-/

namespace Heredoc.Main

/-- How long watching waits between two looks, in milliseconds. -/
def pause : UInt32 := 100

/-- How deep directories are looked into. -/
def deepest : Nat := 64

/-- What was found at each path. -/
abbrev Found := Assoc SystemPath (Except ReadError FileTree)

/-- Reads a file. -/
def readFile (path : Path) : IO (Except ReadError FileTree) := do
  try
    let bytes ← IO.FS.readBinFile path.text
    return .ok (.file bytes.toList)
  catch
    | .noFileOrDirectory .. => return .error .notFound
    | .inappropriateType .. => return .error .notDirectory
    | error => return .error (.other (toString error))

/-- Reads what is at a path, and what is below it down to a depth. The path itself comes first. -/
def gather : Nat → Path → IO Found
  | depth, path => do
      let place := (← IO.currentDir) / path.text
      if !(← place.isDir) then return [(path, ← readFile path)]
      match depth with
      | 0 => return [(path, .ok .empty)]
      | depth + 1 =>
          let mut entries : Assoc FileName FileTree := []
          let mut below : Found := []
          for entry in ← place.readDir do
            let some inside := (path.system.join entry.fileName).text? | continue
            let found ← gather depth inside
            if let (_, .ok tree) :: _ := found then
              entries := entries.put entry.fileName tree
            below := below ++ found
          return (path, .ok (.directory entries)) :: below

/-- The files that were found. -/
def filesOf (found : Found) : Files where
  locate path := (found.get? path).getD (.error .notFound)

/-- Where the standard settings file is. -/
def standardPath : IO Path := do
  let home := (← IO.getEnv "HOME").getD "/tmp"
  let directory := (← IO.getEnv "XDG_CONFIG_HOME").getD (home ++ "/.config")
  return ⟨directory ++ "/heredoc/config.toml"⟩

/-- The paths that a command names, and how deep it looks below them. -/
def namedPaths : Command → List Path × Nat
  | .check request _ files => (request.file.toList ++ files, 0)
  | .scan files => (files, 0)
  | .watch request paths => (request.file.toList ++ paths, deepest)

/-- Everything that a command needs to know of the files. -/
def surroundingsOf (command : Command) : IO (Surroundings × Found) := do
  let standard ← standardPath
  let (paths, depth) := namedPaths command
  let found ← (standard :: paths).mapM (gather depth)
  return (⟨filesOf found.flatten, standard, fun _ _ => none⟩, found.flatten)

/-- Looks at the files again and again. -/
partial def watchOn (command : Command) (workspace : Workspace) (known : Found) (clock : Nat) :
    IO Unit := do
  IO.sleep pause
  let (surroundings, found) ← surroundingsOf command
  let now ← IO.monoMsNow
  let paths := ((found.keys ++ known.keys).eraseDups).filterMap SystemPath.text?
  let refreshed := paths.foldl (fun open_ path => open_.refresh surroundings.files path) workspace
  let advanced := refreshed.advance (now - clock)
  let (reports, scheduler) := advanced.scheduler.takeReports
  IO.print (printLines (reports.flatMap Report.lines))
  (← IO.getStdout).flush
  watchOn command { advanced with scheduler } found now

/-- Says why a command failed. -/
def fail (error : CommandError) : IO UInt32 := do
  IO.eprintln ("Error: " ++ error.message)
  return 1

/-- Carries out a command. -/
def runCommand (command : Command) : IO UInt32 := do
  let (surroundings, found) ← surroundingsOf command
  let finished := surroundings.run command
  IO.print finished.output
  match finished.result, command with
  | .error error, _ => fail error
  | .ok _, .watch request roots =>
      match surroundings.openRoots request roots with
      | .error error => fail error
      | .ok workspace =>
          watchOn command workspace found (← IO.monoMsNow)
          return 0
  | .ok status, _ => return status.toUInt32

/-- What the program can be asked to do. -/
def usage : String :=
  "Check JSON, YAML, XML and Python embedded in shell heredocs\n\n" ++
  "  check [OPTIONS] FILES...   validate every tagged heredoc in the given files\n" ++
  "  scan FILES...              list the tagged heredoc regions in the given files\n" ++
  "  watch [OPTIONS] PATHS...   watch files or directories and revalidate on change\n\n" ++
  "  -c, --config PATH          settings file\n" ++
  "      --max-bytes BYTES      skip bodies larger than this\n" ++
  "      --disable KEY          disable a validator by key; repeatable\n" ++
  "  -f, --format FORMAT        text or json (check only)"

end Heredoc.Main

/-- The program. -/
def main (arguments : List String) : IO UInt32 := do
  match Heredoc.Command.parse arguments with
  | .ok command => Heredoc.Main.runCommand command
  | .error .help =>
      IO.println Heredoc.Main.usage
      return 0
  | .error .version =>
      IO.println "heredoc 0.1.0"
      return 0
  | .error error =>
      IO.eprintln ("error: " ++ error.message ++ "\n\n" ++ Heredoc.Main.usage)
      return error.status.toUInt32
