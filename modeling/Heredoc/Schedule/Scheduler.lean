import Heredoc.Duration
import Heredoc.Schedule.Track

/-!
# The scheduler

The tracks of all buffers on one clock. What is asked of the scheduler only changes a track; what
falls due, a timer or a pass, is done when the clock moves or when the reports are taken.
-/

namespace Heredoc

/-- What can happen to a buffer that makes it worth checking. -/
inductive Occasion where
  | opened
  | changed
  | saved
  | activated
deriving DecidableEq, Repr

/-- The name of an occasion. -/
def Occasion.name : Occasion → String
  | .opened => "Opened"
  | .changed => "Changed"
  | .saved => "Saved"
  | .activated => "Activated"

/-- Something that happened to a buffer, as text. -/
def eventText (name : String) (id : BufferId) : String :=
  name ++ "(BufferId(" ++ Text.quoted id ++ "))"

/-- Whether a report is listed before another: by time, buffer and version, natural passes
first. -/
def Report.listedBefore (report other : Report) : Bool :=
  if report.time ≠ other.time then report.time < other.time
  else if report.buffer ≠ other.buffer then report.buffer < other.buffer
  else if report.version ≠ other.version then report.version < other.version
  else !report.forced || other.forced

/-- An engine, a quiet time, a clock in milliseconds, and the track of each buffer. -/
structure Scheduler where
  engine : Engine
  debounce : Nat
  now : Nat
  tracks : Assoc BufferId Track

namespace Scheduler

/-- A scheduler at time zero that knows no buffer. -/
def start (engine : Engine) (debounce : Nat) : Scheduler :=
  ⟨engine, debounce, 0, []⟩

/-- The track of a buffer. -/
def track (scheduler : Scheduler) (id : BufferId) : Track :=
  (scheduler.tracks.get? id).getD (.empty id)

/-- Changes the track of a buffer. -/
def update (scheduler : Scheduler) (id : BufferId) (change : Track → Track) : Scheduler :=
  { scheduler with tracks := scheduler.tracks.put id (change (scheduler.track id)) }

/-- Adds a source of a buffer; gives its number. -/
def addSource (scheduler : Scheduler) (id : BufferId) (source : Source) : Nat × Scheduler :=
  ((scheduler.track id).sources.length, scheduler.update id (·.addSource source))

/-- Changes a source of a buffer. -/
def modifySource (scheduler : Scheduler) (id : BufferId) (number : Nat)
    (change : Source → Source) : Scheduler :=
  scheduler.update id (·.modifySource number change)

/-- Something happened to a buffer. -/
def notify (scheduler : Scheduler) (id : BufferId) (source : Nat) : Scheduler :=
  scheduler.update id (·.schedule scheduler.debounce scheduler.now source)

/-- A buffer was closed. -/
def close (scheduler : Scheduler) (id : BufferId) : Scheduler :=
  scheduler.update id Track.close

/-- Notes a version as checked. -/
def setCached (scheduler : Scheduler) (id : BufferId) (version : Nat) : Scheduler :=
  scheduler.update id fun track => { track with cached := some version }

/-- Moves the clock to a later time and does what falls due on the way. -/
def advanceTo (scheduler : Scheduler) (time : Nat) : Scheduler :=
  { scheduler with
    now := time
    tracks := scheduler.tracks.map fun (id, track) => (id, track.runTo scheduler.engine time) }

/-- Does what is due by now. -/
def settle (scheduler : Scheduler) : Scheduler :=
  scheduler.advanceTo scheduler.now

/-- Moves the clock by so many milliseconds. -/
def advance (scheduler : Scheduler) (milliseconds : Nat) : Scheduler :=
  scheduler.advanceTo (scheduler.now + milliseconds)

/-- Starts a pass at once. -/
def force (scheduler : Scheduler) (id : BufferId) (source : Nat) : Scheduler :=
  scheduler.update id (·.force scheduler.engine scheduler.now source)

/-- Starts a pass at once and waits until it ends; gives its report. -/
def forceAndWait (scheduler : Scheduler) (id : BufferId) (source : Nat) :
    Option Report × Scheduler :=
  let number := (scheduler.track id).started
  let forced := scheduler.force id source
  let done := match (forced.track id).passes.find? (·.number = number) with
    | some pass => forced.advanceTo (max pass.due forced.now)
    | none => forced
  ((done.track id).reports.find? (·.number = some number), done)

/-- Forgets every buffer and its timer. -/
def shutdown (scheduler : Scheduler) : Scheduler :=
  { scheduler with tracks := scheduler.tracks.map fun (id, track) => (id, track.forget) }

/-- What a buffer is doing, if it is tracked. -/
def phase? (scheduler : Scheduler) (id : BufferId) : Option Phase :=
  (scheduler.track id).entry.map Entry.phase

/-- The number of tracked buffers. -/
def tracked (scheduler : Scheduler) : Nat :=
  (scheduler.tracks.filter fun (_, track) => track.entry.isSome).length

/-- How often something was published. -/
def publishes (scheduler : Scheduler) : Nat :=
  scheduler.tracks.foldl (fun total (_, track) => total + track.publishes) 0

/-- The keys of the validators that ran. -/
def calls (scheduler : Scheduler) : List String :=
  scheduler.tracks.flatMap fun (_, track) => track.calls

/-- Does what is due by now; gives the reports that are there, in order, and the scheduler without
them. -/
def takeReports (scheduler : Scheduler) : List Report × Scheduler :=
  let settled := scheduler.settle
  let reports := settled.tracks.flatMap fun (_, track) => track.reports
  (reports.mergeSort Report.listedBefore,
    { settled with
      tracks := settled.tracks.map fun (id, track) => (id, { track with reports := [] }) })

/-- The scheduler as text. -/
def text (scheduler : Scheduler) : String :=
  "Scheduler \x7b debounce: " ++ durationText scheduler.debounce ++ ", buffers: " ++
    toString scheduler.tracked ++ " \x7d"

end Scheduler

end Heredoc
