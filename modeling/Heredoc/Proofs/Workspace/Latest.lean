import Heredoc.Proofs.Workspace.Watching
import Heredoc.Validator.Scripted

/-!
# Open paths show their latest text

Main statement: after every careful run, every open path at rest shows what the engine finds in the
text that was given last for it, and nothing else is shown. The first opening or closing that is not
careful can be followed by a rest at which that fails.
-/

namespace Heredoc

namespace Workspace

/-! ## What is shown -/

/-- A path that is open as it is written shows what the engine finds in the latest text, and any
other path shows nothing. -/
def ShowsLatest (engine : Engine) (moves : List Move) (workspace : Workspace) (path : Path) :
    Prop :=
  (workspace.isOpenAs path = true →
    ∃ text diagnostics,
      latest? moves path = some text ∧
        engine.diagnose (Document.ofText path.text 0 text).view = .ok diagnostics ∧
          (workspace.scheduler.track path.text).shown = some diagnostics) ∧
    (workspace.isOpenAs path = false →
      (workspace.scheduler.track path.text).shown = none)

theorem Sound.showsLatest
    {engine : Engine} {moves : List Move} {workspace : Workspace} {path : Path}
    (sound : workspace.Sound engine (latest? moves))
    (rest : (workspace.scheduler.track path.text).AtRest) :
    workspace.ShowsLatest engine moves path := by
  constructor
  · intro isOpenAs
    obtain ⟨number, found⟩ := isOpenAs_eq_true.mp isOpenAs
    obtain ⟨text, given, watched⟩ := sound.opened path number found
    obtain ⟨diagnostics, diagnosed, shown⟩ := watched.shown rest path.text
    exact ⟨text, diagnostics, given, diagnosed, shown⟩
  · intro unopened
    have booked := sound.booked path.text
    have unchecked : (workspace.scheduler.track path.text).cached = none := by
      rw [booked.noted, sound.closed path unopened]
      rfl
    have nothing := booked.shown
    rw [unchecked] at nothing
    simpa using nothing

/-- Every path whose buffer is at rest shows its latest text. -/
def UpToDate (engine : Engine) (moves : List Move) (workspace : Workspace) : Prop :=
  ∀ path : Path,
    (workspace.scheduler.track path.text).AtRest → workspace.ShowsLatest engine moves path

/-! ## Carelessness -/

variable {engine : Engine} {workspace : Workspace}

/-- A path that is open under another name has another buffer, which is served. -/
theorem Sound.exists_watched
    {latest : Path → Option String} {path : Path}
    (sound : workspace.Sound engine latest) (unnamed : workspace.isNamed path = false) :
    ∃ id number text,
      workspace.isOpen path = true ∧ path.text ≠ id ∧ Path.components ⟨id⟩ = path.components ∧
        (workspace.scheduler.track id).Watched engine number text := by
  unfold isNamed at unnamed
  cases found : workspace.opened.get? path.components with
  | none =>
      rw [found] at unnamed
      cases unnamed
  | some known =>
      obtain ⟨id, number⟩ := known
      rw [found] at unnamed
      have different : id ≠ path.text := by simpa using unnamed
      have isOpen : workspace.isOpen path = true := by
        simp [Workspace.isOpen, Assoc.contains, found]
      have named := sound.named _ _ _ found
      obtain ⟨text, _, watched⟩ := sound.opened ⟨id⟩ number (named ▸ found)
      exact ⟨id, number, text, isOpen, Ne.symm different, named, watched⟩

/-- A buffer that is served, but is no longer that of an open path, comes to show something when it
is left to itself. -/
theorem exists_run_abandoned
    {id : BufferId} {number : Nat} {text : String}
    (watched : (workspace.scheduler.track id).Watched engine number text) :
    ∃ later : List Move,
      (∀ move ∈ later, move.isInternal = true) ∧
        ∀ abandoned : Workspace,
          abandoned.scheduler.engine = engine →
            abandoned.scheduler.track id = workspace.scheduler.track id →
              abandoned.isOpenAs ⟨id⟩ = false →
                ∀ moves, ¬ (abandoned.run later).UpToDate engine moves := by
  let track := workspace.scheduler.track id
  let patience : Nat := (track.entry.bind Entry.timer).elim 0 Timer.due
  obtain ⟨later, laterInternal, reached⟩ :=
    exists_run_eq_foldl track.isInternal_remaining id patience
  refine ⟨later, laterInternal, ?_⟩
  intro abandoned sameEngine sameTrack unopened moves upToDate
  obtain ⟨sameOpened, ended⟩ := reached abandoned
  rw [sameEngine, sameTrack] at ended
  have due :
      ∀ timer, track.entry.bind Entry.timer = some timer →
        timer.due ≤ abandoned.scheduler.now + patience := by
    intro timer armed
    have longEnough : patience = timer.due := by simp only [patience, armed, Option.elim_some]
    rw [longEnough]
    exact Nat.le_add_left _ _
  obtain ⟨rest, diagnostics, shown⟩ := watched.shown_remaining due abandoned.scheduler.debounce
  rw [← ended] at rest shown
  have stillUnopened : (abandoned.run later).isOpenAs ⟨id⟩ = false := by
    rw [isOpenAs, sameOpened]
    exact unopened
  have nothing := (upToDate ⟨id⟩ rest).2 stillUnopened
  rw [shown] at nothing
  cases nothing

/-- A path whose buffer something was read of is opened: it can come to show the same whatever the
text is. -/
theorem exists_run_overtaken
    {path : Path}
    (sameEngine : workspace.scheduler.engine = engine)
    (booked : (workspace.scheduler.track path.text).Booked)
    (read : (workspace.scheduler.track path.text).isUnread = false) :
    ∃ (later : List Move) (stale : List Diagnostic),
      (∀ move ∈ later, move.isInternal = true) ∧
        ∀ text,
          engine.diagnose (Document.ofText path.text 0 text).view ≠ .ok stale →
            ∀ moves,
              latest? moves path = some text →
                ¬ ((workspace.openPath path text).run later).UpToDate engine moves := by
  let track := workspace.scheduler.track path.text
  let debounce := workspace.scheduler.debounce
  let now := workspace.scheduler.now
  obtain ⟨later, laterInternal, reached⟩ :=
    exists_run_eq_foldl track.isInternal_remaining path.text debounce
  obtain ⟨stale, shown⟩ :=
    Track.exists_shown_openWith booked read engine debounce (Nat.le_refl (now + debounce))
  refine ⟨later, stale, laterInternal, ?_⟩
  intro text different moves given upToDate
  let document : Document := .ofText path.text 0 text
  obtain ⟨sameOpened, ended⟩ := reached (workspace.openPath path text)
  have opened :
      (workspace.openPath path text).scheduler.track path.text =
        track.openWith debounce now document := by
    rw [track_openPath, if_pos rfl]
  have final :
      ((workspace.openPath path text).run later).scheduler.track path.text =
        track.remaining.foldl (Track.act engine debounce (now + debounce))
          (track.openWith debounce now document) := by
    rw [ended, opened, ← sameEngine]
    rfl
  have rest :
      (((workspace.openPath path text).run later).scheduler.track path.text).AtRest := by
    rw [final]
    refine Track.atRest_remaining (booked.openWith debounce now document).tidy ?_ engine debounce
    intro timer armed
    exact Nat.le_of_eq (congrArg Timer.due (Option.some.inj armed)).symm
  have isOpenAs : ((workspace.openPath path text).run later).isOpenAs path = true := by
    have openedAs := workspace.isOpenAs_openPath path path text
    rw [if_pos rfl, decide_eq_true rfl] at openedAs
    rw [← openedAs, isOpenAs, sameOpened]
    rfl
  obtain ⟨latestText, diagnostics, latestGiven, diagnosed, shownLast⟩ :=
    (upToDate path rest).1 isOpenAs
  obtain rfl : text = latestText := Option.some.inj (given.symm.trans latestGiven)
  rw [final, shown document rfl] at shownLast
  exact different (Option.some.inj shownLast ▸ diagnosed)

/-- After every careful run, every path whose buffer is at rest shows its latest text, and no path
that is not open shows anything. If a path is then opened that is not ready, time alone can lead to
a rest at which this fails, for every text in which the engine finds anything else than a fixed
list; so it can if a path is closed under another name than that of its buffer. -/
theorem shows_latest_at_rest
    (engine : Engine) (debounce : Nat) (moves : List Move) (workspace : Workspace)
    (careful : (Workspace.start (.start engine debounce)).careful moves = true)
    (reached : (Workspace.start (.start engine debounce)).run moves = workspace) :
    workspace.UpToDate engine moves ∧
      (∀ path,
        workspace.isReady path = false →
          ∃ (later : List Move) (stale : List Diagnostic),
            (∀ move ∈ later, move.isInternal = true) ∧
              ∀ move text,
                workspace.opening? move = some (path, text) →
                  engine.diagnose (Document.ofText path.text 0 text).view ≠ .ok stale →
                    ¬ (workspace.run (move :: later)).UpToDate engine
                      (moves ++ move :: later)) ∧
        ∀ path,
          workspace.isNamed path = false →
            ∃ later : List Move,
              (∀ move ∈ later, move.isInternal = true) ∧
                ¬ (workspace.run (.close path :: later)).UpToDate engine
                  (moves ++ .close path :: later) := by
  have sound : workspace.Sound engine (latest? moves) := reached ▸ Sound.run engine debounce careful
  refine ⟨fun path rest => sound.showsLatest rest, ?_, ?_⟩
  · intro path unready
    by_cases named : workspace.isNamed path = true
    · have read : (workspace.scheduler.track path.text).isUnread = false := by
        simpa [isReady, named] using unready
      obtain ⟨later, stale, laterInternal, fails⟩ :=
        exists_run_overtaken sound.engine_eq (sound.booked path.text) read
      refine ⟨later, stale, laterInternal, ?_⟩
      intro move text opens different
      obtain ⟨applied, gives⟩ := apply_of_opening opens
      rw [run_cons, applied]
      refine fails text different _ (latest?_append_cons ?_ laterInternal moves)
      rw [gives, if_pos rfl]
    · obtain ⟨id, number, text, _, different, sameComponents, watched⟩ :=
        sound.exists_watched (Bool.eq_false_iff.mpr named)
      obtain ⟨later, laterInternal, fails⟩ := exists_run_abandoned watched
      refine ⟨later, [], laterInternal, ?_⟩
      intro move newText opens _
      rw [run_cons, (apply_of_opening opens).1]
      refine fails (workspace.openPath path newText) sound.engine_eq ?_ ?_ _
      · rw [track_openPath, if_neg different]
      · rw [isOpenAs_openPath, if_pos sameComponents.symm]
        exact decide_eq_false different
  · intro path unnamed
    obtain ⟨id, number, text, isOpen, different, sameComponents, watched⟩ :=
      sound.exists_watched unnamed
    obtain ⟨later, laterInternal, fails⟩ := exists_run_abandoned watched
    refine ⟨later, laterInternal, ?_⟩
    rw [run_cons]
    refine fails _ ?_ ?_ ?_ _
    · rw [apply, close, if_pos isOpen]
      exact sound.engine_eq
    · rw [apply, track_close isOpen, if_neg different]
    · rw [apply, isOpenAs_close isOpen, if_pos sameComponents.symm]

/-- An engine that gives the body of each JSON region back after a while. -/
def echoing : Engine :=
  ⟨TagTable.empty.insert "JSON" "json",
    Registry.empty.register (Validator.scripted "json" 100 .echo), {}⟩

/-- A path is opened and edited, closed while nothing is in flight, and opened again. -/
def visits : List Move :=
  [.openPath ⟨"a.sh"⟩ "cat <<JSON\n1\nJSON\n", .advance 300,
    .reload ⟨"a.sh"⟩ "cat <<JSON\n2\nJSON\n", .advance 500, .close ⟨"a.sh"⟩,
    .reload ⟨"a.sh"⟩ "cat <<JSON\n3\nJSON\n", .advance 350]

/-- After these visits the path shows its last text, and it is not ready: opened once more with one
of two texts, it can come to show something else. -/
theorem shows_latest_at_rest_visits :
    (Workspace.start (.start echoing 250)).careful visits = true ∧
      (((Workspace.start (.start echoing 250)).run visits).ShowsLatest echoing visits ⟨"a.sh"⟩ ∧
        ∃ text later,
          ¬ (((Workspace.start (.start echoing 250)).run visits).run
            (.openPath ⟨"a.sh"⟩ text :: later)).UpToDate echoing
              (visits ++ .openPath ⟨"a.sh"⟩ text :: later)) := by
  have careful : (Workspace.start (.start echoing 250)).careful visits = true := by
    decide +kernel
  have rest :
      (((Workspace.start (.start echoing 250)).run visits).scheduler.track "a.sh").AtRest :=
    ⟨by decide +kernel, List.isEmpty_iff.mp (by decide +kernel)⟩
  obtain ⟨upToDate, careless, _⟩ := shows_latest_at_rest echoing 250 visits _ careful rfl
  refine ⟨careful, upToDate ⟨"a.sh"⟩ rest, ?_⟩
  obtain ⟨later, stale, _, fails⟩ := careless ⟨"a.sh"⟩ (by decide +kernel)
  have differ :
      echoing.diagnose (Document.ofText "a.sh" 0 "echo").view ≠
        echoing.diagnose (Document.ofText "a.sh" 0 "cat <<JSON\n1\nJSON\n").view := by
    decide +kernel
  by_cases same : echoing.diagnose (Document.ofText "a.sh" 0 "echo").view = .ok stale
  · exact ⟨_, later, fails _ _ rfl (same ▸ differ.symm)⟩
  · exact ⟨_, later, fails _ _ rfl same⟩

end Workspace

end Heredoc
