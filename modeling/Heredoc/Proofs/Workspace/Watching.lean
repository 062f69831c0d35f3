import Heredoc.Proofs.Schedule.Closing
import Heredoc.Proofs.Workspace.Run

/-!
# Watching with care

A path that is opened starts over at version zero, under a name that the scheduler may know
already. A run is careful if each opening finds a buffer of which nothing was read, and if each
opening and closing writes an open path as it was written when it was opened. Main statement: after
every careful run the buffer of each open path is served by a source with the latest text of the
path, and no other buffer is tracked (`Workspace.Sound.run`).
-/

namespace Heredoc

namespace Track

/-! ## The buffer of an open path -/

/-- A source with the lines of a text serves the buffer, which is tracked. -/
structure Watched (engine : Engine) (number : Nat) (text : String) (track : Track) : Prop where
  followed : track.Followed engine number True
  tracked : track.entry.isSome = true
  known : number < track.sources.length
  lines : (track.source number).document.lines = Text.documentLines text

namespace Watched

variable {engine : Engine} {number : Nat} {text : String} {track : Track}

theorem openWith
    (booked : track.Booked) (unread : track.isUnread = true)
    (debounce now : Nat) (id : BufferId) (text : String) :
    (track.openWith debounce now (.ofText id 0 text)).Watched engine track.sources.length text := by
  refine ⟨followed_openWith booked unread debounce now _, rfl, ?_, ?_⟩
  · simp [Track.openWith, Track.schedule, addSource]
  · have newSource :
        (track.openWith debounce now (.ofText id 0 text)).source track.sources.length =
          ⟨.ofText id 0 text, false⟩ :=
      track.source_addSource_self _
    rw [newSource]
    rfl

/-- The served source takes in a text, and that is announced. -/
theorem setText
    (watched : track.Watched engine number text) (debounce now : Nat) (newText : String) :
    ((track.modifySource number (·.edit (.setText newText))).schedule debounce now number).Watched
      engine number newText := by
  have edited :
      (track.act engine debounce now (.edit number (.setText newText))).Followed
        engine number False :=
    watched.followed.act (by simp [Action.serves]) rfl False.elim debounce now
  have announced :
      ((track.act engine debounce now (.edit number (.setText newText))).act
        engine debounce now (.notify number)).Followed engine number True :=
    edited.act (by simp [Action.serves]) rfl (fun _ => .inl ⟨number, rfl⟩) debounce now
  refine ⟨announced, rfl, ?_, ?_⟩
  · simpa [Track.schedule, modifySource] using watched.known
  · have changed := source_modifySource_of_lt watched.known (·.edit (.setText newText))
    exact congrArg (·.document.lines) changed

/-- The firing of the timer and the end of a pass change nothing about what is served. -/
theorem act
    {action : Action}
    (watched : track.Watched engine number text) (isInternal : action.isInternal = true)
    (debounce now : Nat) :
    (track.act engine debounce now action).Watched engine number text := by
  obtain ⟨sameTracked, sameSources, sameSource⟩ :=
    act_of_isInternal engine debounce now track isInternal
  have followed : (track.act engine debounce now action).Followed engine number True := by
    rcases Action.eq_of_isInternal isInternal with rfl | ⟨finished, rfl⟩
    · exact watched.followed.act rfl rfl (by simp) debounce now
    · exact watched.followed.act rfl rfl (by simp) debounce now
  refine ⟨followed, sameTracked.trans watched.tracked, ?_, ?_⟩
  · rw [sameSources]
    exact watched.known
  · rw [sameSource]
    exact watched.lines

/-- At rest, what is shown is what the engine finds in the text. -/
theorem shown
    (watched : track.Watched engine number text) (rest : track.AtRest) (id : BufferId) :
    ∃ diagnostics,
      engine.diagnose (Document.ofText id 0 text).view = .ok diagnostics ∧
        track.shown = some diagnostics := by
  obtain ⟨unarmed, still⟩ := rest
  obtain ⟨entry, tracked⟩ := Option.isSome_iff_exists.mp watched.tracked
  have noTimer : entry.timer = none := by
    rw [armed?_eq_none, tracked] at unarmed
    exact unarmed
  have followed := watched.followed
  obtain ⟨_, ⟨diagnostics, diagnosed, shown⟩, _⟩ :=
    converged_of_covered (followed.covered trivial) followed.tidy followed.serves
      tracked noTimer still
  refine ⟨diagnostics, ?_, shown⟩
  have same :
      engine.diagnose (track.source number).document.view =
        engine.diagnose (Document.ofText id 0 text).view :=
    engine.diagnose_view_congr watched.lines
  exact same ▸ diagnosed

theorem foldl
    (debounce now : Nat) :
    ∀ (actions : List Action) (track : Track),
      (∀ action ∈ actions, action.isInternal = true) →
        track.Watched engine number text →
          (actions.foldl (Track.act engine debounce now) track).Watched engine number text
  | [], _, _, watched => watched
  | first :: rest, track, allInternal, watched =>
      foldl debounce now rest (track.act engine debounce now first)
        (fun action member => allInternal action (List.mem_cons_of_mem _ member))
        (watched.act (allInternal first List.mem_cons_self) debounce now)

/-- A buffer that is left to itself comes to rest, and something is shown for it. -/
theorem shown_remaining
    {now : Nat}
    (watched : track.Watched engine number text)
    (due : ∀ timer, track.entry.bind Entry.timer = some timer → timer.due ≤ now)
    (debounce : Nat) :
    (track.remaining.foldl (Track.act engine debounce now) track).AtRest ∧
      ∃ diagnostics,
        (track.remaining.foldl (Track.act engine debounce now) track).shown = some diagnostics := by
  have rest := atRest_remaining watched.followed.tidy due engine debounce
  have watchedStill :=
    Watched.foldl debounce now track.remaining track track.isInternal_remaining watched
  obtain ⟨diagnostics, _, shown⟩ := watchedStill.shown rest track.id
  exact ⟨rest, diagnostics, shown⟩

end Watched

end Track

namespace Workspace

/-! ## Care -/

/-- Whether the path is open and was written this way when it was opened. -/
def isOpenAs (workspace : Workspace) (path : Path) : Bool :=
  match workspace.opened.get? path.components with
  | some (id, _) => id = path.text
  | none => false

/-- Whether the path, if it is open, was written this way when it was opened. -/
def isNamed (workspace : Workspace) (path : Path) : Bool :=
  match workspace.opened.get? path.components with
  | some (id, _) => id = path.text
  | none => true

/-- Whether the path can be opened: nothing was read of its buffer, and if it is open already, that
is its buffer. -/
def isReady (workspace : Workspace) (path : Path) : Bool :=
  workspace.isNamed path && (workspace.scheduler.track path.text).isUnread

/-- The path that a move opens, and the text. -/
def opening? (workspace : Workspace) : Move → Option (Path × String)
  | .openPath path text => some (path, text)
  | .reload path text =>
      if workspace.isOpen path = false ∧ Script.isScript path text = true then some (path, text)
      else none
  | .close _ | .advance _ | .wait _ | .fire _ | .finish .. => none

/-- Whether a move opens only a path that is ready and closes a path only as it is named. -/
def isCareful (workspace : Workspace) (move : Move) : Bool :=
  (workspace.opening? move).all (fun (path, _) => workspace.isReady path) &&
    match move with
    | .close path => workspace.isNamed path
    | _ => true

/-- Whether each move of a run is careful when it is made. -/
def careful (workspace : Workspace) : List Move → Bool
  | [] => true
  | move :: moves => workspace.isCareful move && (workspace.apply move).careful moves

theorem careful_append
    (workspace : Workspace) (moves : List Move) (move : Move) :
    workspace.careful (moves ++ [move]) =
      (workspace.careful moves && (workspace.run moves).isCareful move) := by
  induction moves generalizing workspace with
  | nil => simp [careful]
  | cons first rest inductionHypothesis =>
      rw [List.cons_append, careful, inductionHypothesis, careful, run_cons, Bool.and_assoc]

/-- A move that opens a path does nothing else. -/
theorem apply_of_opening
    {workspace : Workspace} {move : Move} {path : Path} {text : String}
    (opens : workspace.opening? move = some (path, text)) :
    workspace.apply move = workspace.openPath path text ∧
      ∀ other : Path,
        move.given? other =
          if path.components = other.components then some text else none := by
  cases move with
  | openPath opened given =>
      obtain ⟨rfl, rfl⟩ := Prod.mk.inj (Option.some.inj opens)
      exact ⟨rfl, fun _ => rfl⟩
  | reload opened given =>
      simp only [opening?] at opens
      split at opens
      · rename_i condition
        obtain ⟨rfl, rfl⟩ := Prod.mk.inj (Option.some.inj opens)
        have notOpen : workspace.opened.get? opened.components = none := by
          simpa [isOpen, Assoc.contains] using condition.1
        refine ⟨?_, fun _ => rfl⟩
        simp only [apply, reload, notOpen]
        exact if_pos condition.2
      · cases opens
  | close closed => cases opens
  | advance milliseconds => cases opens
  | wait milliseconds => cases opens
  | fire id => cases opens
  | finish id number => cases opens

/-- When a path that is not open is reloaded with a text that makes no script, nothing happens. -/
theorem apply_reload_of_not_opening
    {workspace : Workspace} {path : Path} {text : String}
    (missing : workspace.opened.get? path.components = none)
    (opens : workspace.opening? (.reload path text) = none) :
    workspace.apply (.reload path text) = workspace := by
  have notOpen : workspace.isOpen path = false := by
    simp [isOpen, Assoc.contains, missing]
  have noScript : ¬ Script.isScript path text = true := by
    intro script
    simp [opening?, notOpen, script] at opens
  simp only [apply, reload, missing]
  exact if_neg noScript

/-! ## Names -/

/-- Paths with other components are written in another way. -/
theorem text_ne_of_components_ne
    {path other : Path} (different : path.components ≠ other.components) :
    path.text ≠ other.text := by
  intro same
  exact different (congrArg (Path.components ⟨·⟩) same)

theorem isOpenAs_eq_true {workspace : Workspace} {path : Path} :
    workspace.isOpenAs path = true ↔
      ∃ number, workspace.opened.get? path.components = some (path.text, number) := by
  unfold isOpenAs
  cases workspace.opened.get? path.components with
  | none => simp
  | some found =>
      obtain ⟨id, number⟩ := found
      simp

theorem isNamed_eq_true {workspace : Workspace} {path : Path} :
    workspace.isNamed path = true ↔
      ∀ id number,
        workspace.opened.get? path.components = some (id, number) → id = path.text := by
  unfold isNamed
  cases workspace.opened.get? path.components with
  | none => simp
  | some found =>
      obtain ⟨id, number⟩ := found
      simp

theorem isOpenAs_openPath
    (workspace : Workspace) (path other : Path) (text : String) :
    (workspace.openPath path text).isOpenAs other =
      if path.components = other.components then decide (path.text = other.text)
      else workspace.isOpenAs other := by
  simp only [isOpenAs, openPath, Assoc.get?_put]
  by_cases same : path.components = other.components
  · rw [if_pos same, if_pos same]
  · rw [if_neg same, if_neg same]

theorem isOpenAs_close
    {workspace : Workspace} {path : Path}
    (isOpen : workspace.isOpen path = true) (other : Path) :
    (workspace.close path).isOpenAs other =
      if path.components = other.components then false else workspace.isOpenAs other := by
  simp only [isOpenAs, close, if_pos isOpen, Assoc.get?_erase]
  by_cases same : path.components = other.components
  · rw [if_pos same, if_pos same]
  · rw [if_neg same, if_neg same]

/-- A path that is open is open under one name only. -/
theorem isOpenAs_of_isNamed
    {workspace : Workspace} {path other : Path}
    (named : workspace.isNamed path = true)
    (same : path.components = other.components) (different : path.text ≠ other.text) :
    workspace.isOpenAs other = false := by
  refine Bool.eq_false_iff.mpr fun isOpenAs => ?_
  obtain ⟨number, found⟩ := isOpenAs_eq_true.mp isOpenAs
  exact different (isNamed_eq_true.mp named other.text number (same ▸ found)).symm

/-! ## The invariant -/

/-- The buffer of each open path is served by its source, which has the latest text, and no other
buffer is tracked. -/
structure Sound (engine : Engine) (latest : Path → Option String) (workspace : Workspace) :
    Prop where
  engine_eq : workspace.scheduler.engine = engine
  named :
    ∀ components id number,
      workspace.opened.get? components = some (id, number) →
        Path.components ⟨id⟩ = components
  booked : ∀ id, (workspace.scheduler.track id).Booked
  opened :
    ∀ (path : Path) (number : Nat),
      workspace.opened.get? path.components = some (path.text, number) →
        ∃ text,
          latest path = some text ∧
            (workspace.scheduler.track path.text).Watched engine number text
  closed :
    ∀ path : Path,
      workspace.isOpenAs path = false → (workspace.scheduler.track path.text).entry = none

namespace Sound

variable {engine : Engine} {latest later : Path → Option String} {workspace : Workspace}

theorem start (engine : Engine) (debounce : Nat) :
    (Workspace.start (.start engine debounce)).Sound engine (latest? []) :=
  ⟨rfl, by simp [Workspace.start], fun id => .empty id, by simp [Workspace.start], fun _ _ => rfl⟩

/-- What was given for paths that are not open does not matter. -/
theorem of_latest
    (sound : workspace.Sound engine latest)
    (same : ∀ path, workspace.isOpenAs path = true → later path = latest path) :
    workspace.Sound engine later := by
  refine ⟨sound.engine_eq, sound.named, sound.booked, ?_, sound.closed⟩
  intro path number found
  rw [same path (isOpenAs_eq_true.mpr ⟨number, found⟩)]
  exact sound.opened path number found

theorem openPath
    {path : Path} {text : String}
    (sound : workspace.Sound engine latest) (ready : workspace.isReady path = true)
    (given : later path = some text)
    (elsewhere : ∀ other, other.components ≠ path.components → later other = latest other) :
    (workspace.openPath path text).Sound engine later := by
  obtain ⟨named, unread⟩ := Bool.and_eq_true_iff.mp ready
  have booked := sound.booked path.text
  -- Another path has another buffer, and its track stays.
  have apart (other : Path) (different : path.text ≠ other.text) :
      (workspace.openPath path text).scheduler.track other.text =
        workspace.scheduler.track other.text := by
    rw [track_openPath, if_neg different]
  refine ⟨sound.engine_eq, ?_, ?_, ?_, ?_⟩
  · intro components id number found
    rw [Workspace.openPath, Assoc.get?_put] at found
    by_cases same : path.components = components
    · rw [if_pos same] at found
      obtain ⟨rfl, _⟩ := Prod.mk.inj (Option.some.inj found)
      exact same
    · rw [if_neg same] at found
      exact sound.named components id number found
  · intro id
    rw [track_openPath]
    by_cases same : path.text = id
    · rw [if_pos same]
      exact (sound.booked id).openWith _ _ _
    · rw [if_neg same]
      exact sound.booked id
  · intro other number found
    rw [Workspace.openPath, Assoc.get?_put] at found
    by_cases same : path.components = other.components
    · rw [if_pos same] at found
      obtain ⟨sameText, rfl⟩ := Prod.mk.inj (Option.some.inj found)
      obtain rfl : path = other := congrArg Path.mk sameText
      rw [track_openPath, if_pos rfl]
      exact ⟨text, given, .openWith booked unread _ _ _ _⟩
    · rw [if_neg same] at found
      rw [apart other (text_ne_of_components_ne same), elsewhere other (Ne.symm same)]
      exact sound.opened other number found
  · intro other unopened
    rw [isOpenAs_openPath] at unopened
    by_cases same : path.components = other.components
    · rw [if_pos same] at unopened
      have different : path.text ≠ other.text := of_decide_eq_false unopened
      rw [apart other different]
      exact sound.closed other (isOpenAs_of_isNamed named same different)
    · rw [if_neg same] at unopened
      rw [apart other (text_ne_of_components_ne same)]
      exact sound.closed other unopened

theorem reload
    {path : Path} {text : String} {id : BufferId} {number : Nat}
    (sound : workspace.Sound engine latest)
    (found : workspace.opened.get? path.components = some (id, number))
    (given : ∀ other, other.components = path.components → later other = some text)
    (elsewhere : ∀ other, other.components ≠ path.components → later other = latest other) :
    (workspace.reload path text).Sound engine later := by
  have named : Path.components ⟨id⟩ = path.components := sound.named _ _ _ found
  obtain ⟨_, _, watched⟩ := sound.opened ⟨id⟩ number (named ▸ found)
  -- The buffer of another open path is another one.
  have apart (other : Path) (otherNumber : Nat)
      (otherFound : workspace.opened.get? other.components = some (other.text, otherNumber)) :
      (id = other.text ∧ number = otherNumber ∧ other.components = path.components) ∨
        (id ≠ other.text ∧ other.components ≠ path.components) := by
    by_cases same : other.components = path.components
    · rw [same, found] at otherFound
      obtain ⟨sameText, sameNumber⟩ := Prod.mk.inj (Option.some.inj otherFound)
      exact .inl ⟨sameText, sameNumber, same⟩
    · have different : Path.components ⟨id⟩ ≠ other.components := by
        rw [named]
        exact Ne.symm same
      exact .inr ⟨text_ne_of_components_ne different, same⟩
  by_cases unchanged :
      ((workspace.scheduler.track id).source number).document.lines = Text.documentLines text
  · have same : workspace.reload path text = workspace := by
      simp only [Workspace.reload, found, if_pos unchanged]
    rw [same]
    refine ⟨sound.engine_eq, sound.named, sound.booked, ?_, sound.closed⟩
    intro other otherNumber otherFound
    rcases apart other otherNumber otherFound with ⟨rfl, rfl, sameComponents⟩ | ⟨_, different⟩
    · exact ⟨text, given other sameComponents, watched.followed, watched.tracked, watched.known,
        unchanged⟩
    · rw [elsewhere other different]
      exact sound.opened other otherNumber otherFound
  · have sameOpened : (workspace.reload path text).opened = workspace.opened := by
      simp only [Workspace.reload, found, if_neg unchanged]
    have sameEngine :
        (workspace.reload path text).scheduler.engine = workspace.scheduler.engine := by
      simp only [Workspace.reload, found, if_neg unchanged]
      rfl
    refine ⟨sameEngine.trans sound.engine_eq, sameOpened ▸ sound.named, ?_, ?_, ?_⟩
    · intro other
      rw [track_reload found unchanged]
      by_cases same : id = other
      · subst same
        rw [if_pos rfl]
        refine ((sound.booked id).edit number (.setText text)).schedule ?_ _ _
        simpa [Track.modifySource] using watched.known
      · rw [if_neg same]
        exact sound.booked other
    · intro other otherNumber otherFound
      rw [sameOpened] at otherFound
      rw [track_reload found unchanged]
      rcases apart other otherNumber otherFound with
        ⟨rfl, rfl, sameComponents⟩ | ⟨otherBuffer, different⟩
      · rw [if_pos rfl]
        exact ⟨text, given other sameComponents, watched.setText _ _ _⟩
      · rw [if_neg otherBuffer, elsewhere other different]
        exact sound.opened other otherNumber otherFound
    · intro other unopened
      have wasUnopened : workspace.isOpenAs other = false := by
        rw [isOpenAs, sameOpened] at unopened
        exact unopened
      rw [track_reload found unchanged]
      by_cases same : id = other.text
      · have isOpen : workspace.isOpenAs other = true := by
          refine isOpenAs_eq_true.mpr ⟨number, ?_⟩
          subst same
          exact named ▸ found
        rw [isOpen] at wasUnopened
        cases wasUnopened
      · rw [if_neg same]
        exact sound.closed other wasUnopened

theorem close
    {path : Path}
    (sound : workspace.Sound engine latest) (named : workspace.isNamed path = true) :
    (workspace.close path).Sound engine latest := by
  by_cases isOpen : workspace.isOpen path = true
  · have openedAfter :
        (workspace.close path).opened = workspace.opened.erase path.components := by
      rw [Workspace.close, if_pos isOpen]
    have sameEngine :
        (workspace.close path).scheduler.engine = workspace.scheduler.engine := by
      rw [Workspace.close, if_pos isOpen]
      rfl
    refine ⟨sameEngine.trans sound.engine_eq, ?_, ?_, ?_, ?_⟩
    · intro components id number found
      rw [openedAfter, Assoc.get?_erase] at found
      by_cases same : path.components = components
      · rw [if_pos same] at found
        cases found
      · rw [if_neg same] at found
        exact sound.named components id number found
    · intro id
      rw [track_close isOpen]
      by_cases same : path.text = id
      · rw [if_pos same]
        exact (sound.booked id).close
      · rw [if_neg same]
        exact sound.booked id
    · intro other number found
      rw [openedAfter, Assoc.get?_erase] at found
      by_cases same : path.components = other.components
      · rw [if_pos same] at found
        cases found
      · rw [if_neg same] at found
        rw [track_close isOpen, if_neg (text_ne_of_components_ne same)]
        exact sound.opened other number found
    · intro other unopened
      rw [track_close isOpen]
      by_cases sameText : path.text = other.text
      · rw [if_pos sameText]
        rfl
      · rw [if_neg sameText]
        rw [isOpenAs_close isOpen] at unopened
        by_cases same : path.components = other.components
        · exact sound.closed other (isOpenAs_of_isNamed named same sameText)
        · rw [if_neg same] at unopened
          exact sound.closed other unopened
  · have same : workspace.close path = workspace := by
      rw [Workspace.close, if_neg isOpen]
    rw [same]
    exact sound

/-- An internal action on a buffer leaves each path as it is. -/
theorem on
    {action : Action}
    (sound : workspace.Sound engine latest) (isInternal : action.isInternal = true)
    (id : BufferId) :
    (workspace.schedule (.on id action)).Sound engine latest := by
  have tracks (other : BufferId) :
      (workspace.schedule (.on id action)).scheduler.track other =
        if id = other then
          (workspace.scheduler.track other).act engine workspace.scheduler.debounce
            workspace.scheduler.now action
        else workspace.scheduler.track other := by
    rw [← sound.engine_eq]
    exact Scheduler.track_act ..
  have sameEngine :
      (workspace.schedule (.on id action)).scheduler.engine = workspace.scheduler.engine :=
    Scheduler.engine_apply ..
  refine ⟨sameEngine.trans sound.engine_eq, sound.named, ?_, ?_, ?_⟩
  · intro other
    rw [tracks]
    by_cases same : id = other
    · rw [if_pos same]
      exact (sound.booked other).act isInternal _ _ _
    · rw [if_neg same]
      exact sound.booked other
  · intro path number found
    obtain ⟨text, given, watched⟩ := sound.opened path number found
    refine ⟨text, given, ?_⟩
    rw [tracks]
    by_cases same : id = path.text
    · rw [if_pos same]
      exact watched.act isInternal _ _
    · rw [if_neg same]
      exact watched
  · intro path unopened
    have untracked := sound.closed path unopened
    rw [tracks]
    by_cases same : id = path.text
    · rw [if_pos same]
      refine Track.untracked_act untracked ?_ _ _ _
      rcases Action.eq_of_isInternal isInternal with rfl | ⟨number, rfl⟩
      · simp
      · simp
    · rw [if_neg same]
      exact untracked

theorem wait
    (sound : workspace.Sound engine latest) (milliseconds : Nat) :
    (workspace.schedule (.wait milliseconds)).Sound engine latest :=
  ⟨sound.engine_eq, sound.named, sound.booked, sound.opened, sound.closed⟩

/-- Whatever happens by itself leaves each path as it is. -/
theorem run_internal
    {moves : List Move}
    (sound : workspace.Sound engine latest)
    (allInternal : ∀ move ∈ moves, move.isInternal = true) :
    (workspace.run moves).Sound engine latest :=
  run_of_isInternal sound Sound.wait Sound.on allInternal

theorem advance
    (sound : workspace.Sound engine latest) (milliseconds : Nat) :
    (workspace.advance milliseconds).Sound engine latest := by
  obtain ⟨moves, allInternal, sameOpened, sameTracks⟩ :=
    workspace.exists_run_eq_advance (fun id => (sound.booked id).tidy) milliseconds
  have reached := sound.run_internal allInternal
  have sameOpenAs (path : Path) :
      (workspace.run moves).isOpenAs path = workspace.isOpenAs path := by
    rw [isOpenAs, sameOpened]
    rfl
  refine ⟨sound.engine_eq, sound.named, ?_, ?_, ?_⟩
  · intro id
    rw [← sameTracks]
    exact reached.booked id
  · intro path number found
    rw [← sameTracks]
    exact reached.opened path number (sameOpened ▸ found)
  · intro path unopened
    rw [← sameTracks]
    exact reached.closed path ((sameOpenAs path).trans unopened)

/-- Every careful move keeps what is known. -/
theorem apply
    {moves : List Move} {move : Move}
    (sound : workspace.Sound engine (latest? moves)) (isCareful : workspace.isCareful move = true) :
    (workspace.apply move).Sound engine (latest? (moves ++ [move])) := by
  obtain ⟨opensReady, closesNamed⟩ := Bool.and_eq_true_iff.mp isCareful
  have silent (path : Path) (nothing : move.given? path = none) :
      latest? (moves ++ [move]) path = latest? moves path :=
    latest?_append_of_not_given (by simpa using nothing) moves
  cases opens : workspace.opening? move with
  | some pair =>
      obtain ⟨path, text⟩ := pair
      obtain ⟨applied, gives⟩ := apply_of_opening opens
      rw [opens] at opensReady
      rw [applied]
      refine sound.openPath opensReady (latest?_append_of_given ?_ moves) ?_
      · rw [gives, if_pos rfl]
      · intro other different
        exact silent other (by rw [gives, if_neg (Ne.symm different)])
  | none =>
      cases move with
      | openPath path text => cases opens
      | reload path text =>
          cases found : workspace.opened.get? path.components with
          | some known =>
              obtain ⟨id, number⟩ := known
              refine sound.reload found ?_ ?_
              · intro other same
                have given : (Move.reload path text).given? other = some text :=
                  if_pos same.symm
                exact latest?_append_of_given given moves
              · intro other different
                exact silent other (if_neg (Ne.symm different))
          | none =>
              rw [apply_reload_of_not_opening found opens]
              refine sound.of_latest fun other isOpenAs => silent other (if_neg ?_)
              intro sameComponents
              obtain ⟨number, openFound⟩ := isOpenAs_eq_true.mp isOpenAs
              rw [← sameComponents, found] at openFound
              cases openFound
      | close path => exact (sound.close closesNamed).of_latest fun other _ => silent other rfl
      | advance milliseconds =>
          exact (sound.advance milliseconds).of_latest fun other _ => silent other rfl
      | wait milliseconds =>
          exact (sound.wait milliseconds).of_latest fun other _ => silent other rfl
      | fire id => exact (sound.on rfl id).of_latest fun other _ => silent other rfl
      | finish id number => exact (sound.on rfl id).of_latest fun other _ => silent other rfl

/-- What is known holds after every careful run. -/
theorem run
    (engine : Engine) (debounce : Nat) {moves : List Move}
    (careful : (Workspace.start (.start engine debounce)).careful moves = true) :
    ((Workspace.start (.start engine debounce)).run moves).Sound engine (latest? moves) := by
  induction moves using List.reverseRecOn with
  | nil => exact .start engine debounce
  | append_singleton past move inductionHypothesis =>
      rw [careful_append] at careful
      obtain ⟨carefulPast, carefulMove⟩ := Bool.and_eq_true_iff.mp careful
      rw [run_append]
      exact (inductionHypothesis carefulPast).apply carefulMove

end Sound

end Workspace

end Heredoc
