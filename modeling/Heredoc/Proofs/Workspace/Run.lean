import Heredoc.Proofs.Schedule.Clock
import Heredoc.Proofs.Schedule.Opening
import Heredoc.Workspace

/-!
# Runs of a workspace

A run is a list of moves, in any order: paths are opened, reloaded and closed, the clock moves, and
timers fire and passes end. The clock can move with all that falls due on the way, each validator
taking its own time, or without it, so that a pass may also end at any other time.
-/

namespace Heredoc

namespace Workspace

/-- What can happen to a workspace. -/
inductive Move where
  | openPath (path : Path) (text : String)
  | reload (path : Path) (text : String)
  | close (path : Path)
  /-- The clock moves, and what falls due on the way is done. -/
  | advance (milliseconds : Nat)
  /-- The clock moves, and what falls due is left for later. -/
  | wait (milliseconds : Nat)
  | fire (id : BufferId)
  | finish (id : BufferId) (number : Nat)
deriving DecidableEq

/-- Whether the move is the passing of time, the firing of a timer or the end of a pass. -/
def Move.isInternal : Move → Bool
  | .wait _ | .fire _ | .finish .. => true
  | .openPath .. | .reload .. | .close _ | .advance _ => false

/-- The text that the move gives for a path. -/
def Move.given? (path : Path) : Move → Option String
  | .openPath other text | .reload other text =>
      if other.components = path.components then some text else none
  | .close _ | .advance _ | .wait _ | .fire _ | .finish .. => none

/-- The text that was given last for a path. -/
def latest? (moves : List Move) (path : Path) : Option String :=
  (moves.filterMap (·.given? path)).getLast?

/-- Carries out a move of the scheduler. -/
def schedule (workspace : Workspace) (move : Heredoc.Move) : Workspace :=
  { workspace with scheduler := workspace.scheduler.apply move }

/-- Carries out a move. -/
def apply (workspace : Workspace) : Move → Workspace
  | .openPath path text => workspace.openPath path text
  | .reload path text => workspace.reload path text
  | .close path => workspace.close path
  | .advance milliseconds => workspace.advance milliseconds
  | .wait milliseconds => workspace.schedule (.wait milliseconds)
  | .fire id => workspace.schedule (.on id .fire)
  | .finish id number => workspace.schedule (.on id (.finish number))

/-- Carries out moves, one after another. -/
def run (workspace : Workspace) (moves : List Move) : Workspace :=
  moves.foldl apply workspace

@[simp]
theorem run_nil (workspace : Workspace) :
    workspace.run [] = workspace := rfl

@[simp]
theorem run_cons (workspace : Workspace) (move : Move) (moves : List Move) :
    workspace.run (move :: moves) = (workspace.apply move).run moves := rfl

theorem run_append (workspace : Workspace) (moves later : List Move) :
    workspace.run (moves ++ later) = (workspace.run moves).run later :=
  List.foldl_append

/-- What waiting and the internal actions on a buffer keep holds after all internal moves. -/
theorem run_of_isInternal
    {holds : Workspace → Prop} {workspace : Workspace} {moves : List Move}
    (start : holds workspace)
    (wait :
      ∀ {workspace : Workspace},
        holds workspace → ∀ milliseconds, holds (workspace.schedule (.wait milliseconds)))
    (on :
      ∀ {workspace : Workspace} {action : Action},
        holds workspace → action.isInternal = true →
          ∀ id, holds (workspace.schedule (.on id action)))
    (allInternal : ∀ move ∈ moves, move.isInternal = true) :
    holds (workspace.run moves) := by
  induction moves generalizing workspace with
  | nil => exact start
  | cons move moves inductionHypothesis =>
      have isInternal := allInternal move List.mem_cons_self
      have next : holds (workspace.apply move) := by
        cases move with
        | wait milliseconds => exact wait start milliseconds
        | fire id => exact on start rfl id
        | finish id number => exact on start rfl id
        | openPath path text => cases isInternal
        | reload path text => cases isInternal
        | close path => cases isInternal
        | advance milliseconds => cases isInternal
      exact inductionHypothesis next fun other member =>
        allInternal other (List.mem_cons_of_mem _ member)

/-! ## The latest text -/

theorem latest?_append_of_given
    {move : Move} {path : Path} {text : String}
    (given : move.given? path = some text) (moves : List Move) :
    latest? (moves ++ [move]) path = some text := by
  simp [latest?, given]

theorem latest?_append_of_not_given
    {path : Path} {later : List Move}
    (silent : ∀ move ∈ later, move.given? path = none) (moves : List Move) :
    latest? (moves ++ later) path = latest? moves path := by
  have nothing : later.filterMap (·.given? path) = [] :=
    List.filterMap_eq_nil_iff.mpr silent
  rw [latest?, List.filterMap_append, nothing, List.append_nil]
  rfl

theorem Move.given?_of_isInternal
    {move : Move} (isInternal : move.isInternal = true) (path : Path) :
    move.given? path = none := by
  cases move with
  | openPath other text => cases isInternal
  | reload other text => cases isInternal
  | close other => rfl
  | advance milliseconds => rfl
  | wait milliseconds => rfl
  | fire id => rfl
  | finish id number => rfl

theorem latest?_append_cons
    {move : Move} {path : Path} {text : String} {later : List Move}
    (given : move.given? path = some text)
    (laterInternal : ∀ other ∈ later, other.isInternal = true) (moves : List Move) :
    latest? (moves ++ move :: later) path = some text := by
  have split : moves ++ move :: later = (moves ++ [move]) ++ later := by simp
  rw [split, latest?_append_of_not_given, latest?_append_of_given given]
  intro other member
  exact Move.given?_of_isInternal (laterInternal other member) path

/-! ## What each move does to the buffers -/

theorem track_openPath
    (workspace : Workspace) (path : Path) (text : String) (id : BufferId) :
    (workspace.openPath path text).scheduler.track id =
      if path.text = id then
        (workspace.scheduler.track id).openWith
          workspace.scheduler.debounce workspace.scheduler.now (.ofText path.text 0 text)
      else workspace.scheduler.track id := by
  simp only [openPath, Scheduler.addSource, Scheduler.notify, Scheduler.track_update]
  by_cases same : path.text = id
  · subst same
    rw [if_pos rfl, if_pos rfl, if_pos rfl]
    rfl
  · rw [if_neg same, if_neg same, if_neg same]

/-- A path that is open takes in a text with other lines. -/
theorem track_reload
    {workspace : Workspace} {path : Path} {text : String} {id : BufferId} {number : Nat}
    (found : workspace.opened.get? path.components = some (id, number))
    (changed :
      ((workspace.scheduler.track id).source number).document.lines ≠ Text.documentLines text)
    (other : BufferId) :
    (workspace.reload path text).scheduler.track other =
      if id = other then
        ((workspace.scheduler.track other).modifySource number (·.edit (.setText text))).schedule
          workspace.scheduler.debounce workspace.scheduler.now number
      else workspace.scheduler.track other := by
  simp only [reload, found, if_neg changed, Scheduler.modifySource, Scheduler.notify,
    Scheduler.track_update]
  by_cases same : id = other
  · subst same
    rw [if_pos rfl, if_pos rfl, if_pos rfl]
    rfl
  · rw [if_neg same, if_neg same, if_neg same]

theorem track_close
    {workspace : Workspace} {path : Path}
    (isOpen : workspace.isOpen path = true) (id : BufferId) :
    (workspace.close path).scheduler.track id =
      if path.text = id then (workspace.scheduler.track id).close
      else workspace.scheduler.track id := by
  rw [close, if_pos isOpen]
  exact Scheduler.track_update ..

/-- What a scheduler does by itself, its workspace can do by itself. -/
theorem exists_run_eq_schedule :
    ∀ moves : List Heredoc.Move,
      (∀ move ∈ moves, move.isInternal = true) →
        ∃ later : List Move,
          (∀ move ∈ later, move.isInternal = true) ∧
            ∀ workspace : Workspace,
              workspace.run later = { workspace with scheduler := workspace.scheduler.run moves }
  | [], _ => ⟨[], by simp, fun _ => rfl⟩
  | move :: moves, allInternal => by
      obtain ⟨later, laterInternal, reached⟩ :=
        exists_run_eq_schedule moves fun other member =>
          allInternal other (List.mem_cons_of_mem _ member)
      have first : ∃ own : Move,
          own.isInternal = true ∧ ∀ workspace, apply workspace own = workspace.schedule move := by
        have isInternal := allInternal move List.mem_cons_self
        cases move with
        | on id action =>
            rcases Action.eq_of_isInternal isInternal with rfl | ⟨number, rfl⟩
            · exact ⟨.fire id, rfl, fun _ => rfl⟩
            · exact ⟨.finish id number, rfl, fun _ => rfl⟩
        | wait milliseconds => exact ⟨.wait milliseconds, rfl, fun _ => rfl⟩
        | shutdown => cases isInternal
      obtain ⟨own, ownInternal, same⟩ := first
      refine ⟨own :: later, ?_, ?_⟩
      · intro other member
        rcases List.mem_cons.mp member with rfl | inLater
        · exact ownInternal
        · exact laterInternal other inLater
      · intro workspace
        rw [run_cons, same, reached]
        rfl

/-- After a time, internal actions can be carried out on one buffer. -/
theorem exists_run_eq_foldl
    {actions : List Action}
    (allInternal : ∀ action ∈ actions, action.isInternal = true)
    (id : BufferId) (milliseconds : Nat) :
    ∃ later : List Move,
      (∀ move ∈ later, move.isInternal = true) ∧
        ∀ workspace : Workspace,
          (workspace.run later).opened = workspace.opened ∧
            (workspace.run later).scheduler.track id =
              actions.foldl
                (Track.act workspace.scheduler.engine workspace.scheduler.debounce
                  (workspace.scheduler.now + milliseconds))
                (workspace.scheduler.track id) := by
  have movesInternal :
      ∀ move ∈ .wait milliseconds :: actions.map (Heredoc.Move.on id), move.isInternal = true := by
    intro move member
    rcases List.mem_cons.mp member with rfl | inActions
    · rfl
    · obtain ⟨action, actionMember, rfl⟩ := List.mem_map.mp inActions
      exact allInternal action actionMember
  obtain ⟨later, laterInternal, reached⟩ := exists_run_eq_schedule _ movesInternal
  refine ⟨later, laterInternal, ?_⟩
  intro workspace
  rw [reached]
  refine ⟨rfl, ?_⟩
  rw [Scheduler.run_cons, (Scheduler.track_run_on _ id id actions).2, if_pos rfl]
  rfl

/-- Moving the clock, with all that falls due on the way, is a run of internal moves. -/
theorem exists_run_eq_advance
    (workspace : Workspace) (tidy : ∀ id, (workspace.scheduler.track id).Tidy)
    (milliseconds : Nat) :
    ∃ later : List Move,
      (∀ move ∈ later, move.isInternal = true) ∧
        (workspace.run later).opened = workspace.opened ∧
          ∀ id,
            (workspace.run later).scheduler.track id =
              (workspace.advance milliseconds).scheduler.track id := by
  obtain ⟨moves, allInternal, _, reached⟩ :=
    workspace.scheduler.exists_run_eq_advance tidy milliseconds
  obtain ⟨later, laterInternal, same⟩ := exists_run_eq_schedule moves allInternal
  refine ⟨later, laterInternal, ?_, ?_⟩
  · rw [same]
  · intro id
    rw [same]
    exact reached id

end Workspace

end Heredoc
