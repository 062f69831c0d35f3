import Heredoc.Proofs.Assoc.Keys
import Heredoc.Proofs.Workspace.Watching

/-!
# Open paths and tracked buffers

A workspace knows a path by its components, the scheduler a buffer by the text of a path, so that
one path can have buffers of several names. A run is faithful if it opens and closes an open path
only under the name that the path was opened with. Main statements: a faithful move keeps open paths
and tracked buffers in step, and a move that is not faithful makes their numbers differ
(`Aligned.apply`, `Aligned.size_lt_tracked`); so they are in step all along exactly in the faithful
runs (`tracks_open_paths_iff`).
-/

namespace Heredoc

/-! ## How many buffers are tracked -/

namespace Scheduler

variable {scheduler : Scheduler}

theorem nodup_keys_update
    (distinct : (Assoc.keys scheduler.tracks).Nodup) (id : BufferId) (change : Track → Track) :
    (Assoc.keys (scheduler.update id change).tracks).Nodup :=
  Assoc.nodup_keys_put distinct id _

theorem keys_advance (scheduler : Scheduler) (milliseconds : Nat) :
    Assoc.keys (scheduler.advance milliseconds).tracks = Assoc.keys scheduler.tracks := by
  simp [advance, advanceTo, Assoc.keys, Function.comp_def]

/-- As many buffers are tracked as there are names of tracked buffers. -/
theorem tracked_eq_length
    (distinct : (Assoc.keys scheduler.tracks).Nodup) {ids : List BufferId} (once : ids.Nodup)
    (exact : ∀ id, id ∈ ids ↔ (scheduler.track id).entry.isSome = true) :
    scheduler.tracked = ids.length := by
  let live := scheduler.tracks.filter fun pair => pair.2.entry.isSome
  have liveOnce : (Assoc.keys live).Nodup := distinct.sublist (List.filter_sublist.map _)
  have sameNames (id : BufferId) : id ∈ Assoc.keys live ↔ id ∈ ids := by
    rw [exact]
    constructor
    · intro member
      obtain ⟨⟨_, track⟩, liveMember, rfl⟩ := List.mem_map.mp member
      obtain ⟨known, tracked⟩ := List.mem_filter.mp liveMember
      rw [Scheduler.track, Assoc.get?_of_mem distinct known]
      exact tracked
    · intro tracked
      rw [Scheduler.track] at tracked
      cases found : scheduler.tracks.get? id with
      | none =>
          rw [found] at tracked
          cases tracked
      | some track =>
          rw [found] at tracked
          have known := Assoc.mem_of_get? found
          exact List.mem_map_of_mem (List.mem_filter.mpr ⟨known, tracked⟩)
  have permuted : (Assoc.keys live).Perm ids :=
    (List.perm_ext_iff_of_nodup liveOnce once).mpr sameNames
  calc scheduler.tracked
    _ = (Assoc.keys live).length := (List.length_map _).symm
    _ = ids.length := permuted.length_eq

end Scheduler

/-! ## Tracks that go on -/

namespace Track

/-- The later track has the same documents and is tracked if the earlier one is. -/
structure Continues (track later : Track) : Prop where
  booked : later.Booked
  tracked : later.entry.isSome = track.entry.isSome
  known : later.sources.length = track.sources.length
  named :
    ∀ number, (later.source number).document.id = (track.source number).document.id

namespace Continues

variable {track : Track}

theorem refl (booked : track.Booked) : track.Continues track :=
  ⟨booked, rfl, rfl, fun _ => rfl⟩

theorem act
    {action : Action} (booked : track.Booked) (isInternal : action.isInternal = true)
    (engine : Engine) (debounce now : Nat) :
    track.Continues (track.act engine debounce now action) := by
  obtain ⟨sameTracked, sameSources, sameSource⟩ :=
    act_of_isInternal engine debounce now track isInternal
  refine ⟨booked.act isInternal engine debounce now, sameTracked, ?_, fun number => ?_⟩
  · rw [sameSources]
  · rw [sameSource]

/-- A document keeps its name when it takes in a text. -/
theorem setText
    {number : Nat} (booked : track.Booked) (tracked : track.entry.isSome = true)
    (known : number < track.sources.length) (debounce now : Nat) (text : String) :
    track.Continues
      ((track.modifySource number (·.edit (.setText text))).schedule debounce now number) := by
  refine ⟨(booked.edit number (.setText text)).schedule ?_ _ _, tracked.symm, ?_, fun other => ?_⟩
  · simpa [modifySource] using known
  · simp [Track.schedule, modifySource]
  · change ((track.modifySource number _).source other).document.id = _
    by_cases same : number = other
    · subst same
      rw [source_modifySource_of_lt known]
      rfl
    · rw [source_modifySource_of_ne _ _ same]

end Continues

end Track

namespace Workspace

/-! ## Faithful runs -/

/-- Whether a move opens and closes an open path only as the path is named. -/
def isFaithful (workspace : Workspace) (move : Move) : Bool :=
  (workspace.opening? move).all (fun (path, _) => workspace.isNamed path) &&
    match move with
    | .close path => workspace.isNamed path
    | _ => true

/-- Whether each move of a run is faithful when it is made. -/
def faithful (workspace : Workspace) : List Move → Bool
  | [] => true
  | move :: moves => workspace.isFaithful move && (workspace.apply move).faithful moves

theorem faithful_append
    (workspace : Workspace) (moves : List Move) (move : Move) :
    workspace.faithful (moves ++ [move]) =
      (workspace.faithful moves && (workspace.run moves).isFaithful move) := by
  induction moves generalizing workspace with
  | nil => simp [faithful]
  | cons first rest inductionHypothesis =>
      rw [List.cons_append, faithful, inductionHypothesis, faithful, run_cons, Bool.and_assoc]

/-- Open paths and tracked buffers are in step. -/
structure TracksOpened (workspace : Workspace) : Prop where
  /-- As many buffers are tracked as there are open paths. -/
  count : workspace.scheduler.tracked = workspace.size
  /-- The document of an open path is tracked under its own name. -/
  each :
    ∀ components id number,
      workspace.opened.get? components = some (id, number) →
        number < (workspace.scheduler.track id).sources.length ∧
          ((workspace.scheduler.track id).source number).document.id = id ∧
            (workspace.scheduler.track id).entry.isSome = true
  /-- When everything is closed, nothing is tracked, cached or shown. -/
  nothing :
    workspace.size = 0 →
      workspace.scheduler.tracked = 0 ∧
        ∀ id,
          (workspace.scheduler.track id).cached = none ∧
            (workspace.scheduler.track id).shown = none

/-! ## The invariant -/

/-- The names under which paths are open. -/
def names (workspace : Workspace) : List BufferId :=
  workspace.opened.map fun (_, id, _) => id

/-- A buffer is tracked if and only if a path is open under its name. -/
structure Aligned (workspace : Workspace) : Prop where
  buffers : (Assoc.keys workspace.scheduler.tracks).Nodup
  paths : (Assoc.keys workspace.opened).Nodup
  named :
    ∀ components id number,
      workspace.opened.get? components = some (id, number) →
        Path.components ⟨id⟩ = components
  served :
    ∀ components id number,
      workspace.opened.get? components = some (id, number) →
        number < (workspace.scheduler.track id).sources.length ∧
          ((workspace.scheduler.track id).source number).document.id = id
  tracked :
    ∀ path : Path,
      (workspace.scheduler.track path.text).entry.isSome = workspace.isOpenAs path
  booked : ∀ id, (workspace.scheduler.track id).Booked

namespace Aligned

variable {workspace later : Workspace} {path : Path}

theorem start (engine : Engine) (debounce : Nat) :
    (Workspace.start (.start engine debounce)).Aligned := by
  refine ⟨List.nodup_nil, List.nodup_nil, ?_, ?_, fun _ => rfl, fun id => .empty id⟩
  · simp [Workspace.start]
  · simp [Workspace.start]

theorem isOpenAs_of_get?
    (aligned : workspace.Aligned) {components : List Component} {id : BufferId} {number : Nat}
    (found : workspace.opened.get? components = some (id, number)) :
    workspace.isOpenAs ⟨id⟩ = true := by
  have sameComponents := aligned.named _ _ _ found
  exact isOpenAs_eq_true.mpr ⟨number, sameComponents ▸ found⟩

/-! ### What is counted -/

theorem nodup_names (aligned : workspace.Aligned) : workspace.names.Nodup := by
  have sameKeys : workspace.names.map (Path.components ⟨·⟩) = Assoc.keys workspace.opened := by
    rw [names, List.map_map]
    refine List.map_congr_left ?_
    rintro ⟨components, id, number⟩ member
    exact aligned.named _ _ _ (Assoc.get?_of_mem aligned.paths member)
  refine List.Nodup.of_map (Path.components ⟨·⟩) ?_
  rw [sameKeys]
  exact aligned.paths

theorem mem_names_iff (aligned : workspace.Aligned) (id : BufferId) :
    id ∈ workspace.names ↔ (workspace.scheduler.track id).entry.isSome = true := by
  rw [aligned.tracked ⟨id⟩]
  constructor
  · intro member
    obtain ⟨⟨components, _, number⟩, known, rfl⟩ := List.mem_map.mp member
    exact aligned.isOpenAs_of_get? (Assoc.get?_of_mem aligned.paths known)
  · intro isOpenAs
    obtain ⟨number, found⟩ := isOpenAs_eq_true.mp isOpenAs
    exact List.mem_map_of_mem (Assoc.mem_of_get? found)

theorem length_names (workspace : Workspace) : workspace.names.length = workspace.size :=
  List.length_map _

theorem tracked_eq_size (aligned : workspace.Aligned) :
    workspace.scheduler.tracked = workspace.size := by
  rw [← length_names]
  exact Scheduler.tracked_eq_length aligned.buffers aligned.nodup_names aligned.mem_names_iff

theorem tracksOpened (aligned : workspace.Aligned) : workspace.TracksOpened := by
  refine ⟨aligned.tracked_eq_size, ?_, ?_⟩
  · intro components id number found
    obtain ⟨known, ownName⟩ := aligned.served _ _ _ found
    refine ⟨known, ownName, ?_⟩
    rw [aligned.tracked ⟨id⟩]
    exact aligned.isOpenAs_of_get? found
  · intro allClosed
    refine ⟨aligned.tracked_eq_size.trans allClosed, fun id => ?_⟩
    have nothingOpen : workspace.opened = [] := List.eq_nil_of_length_eq_zero allClosed
    have untracked : (workspace.scheduler.track id).entry = none := by
      refine Option.not_isSome_iff_eq_none.mp ?_
      rw [aligned.tracked ⟨id⟩, isOpenAs, nothingOpen]
      exact Bool.false_ne_true
    have booked := aligned.booked id
    have unchecked : (workspace.scheduler.track id).cached = none := by
      rw [booked.noted, untracked]
      rfl
    refine ⟨unchecked, Option.not_isSome_iff_eq_none.mp ?_⟩
    rw [booked.shown, unchecked]
    exact Bool.false_ne_true

/-! ### Moves that open and close nothing -/

theorem of_continues
    (aligned : workspace.Aligned) (sameOpened : later.opened = workspace.opened)
    (buffers : (Assoc.keys later.scheduler.tracks).Nodup)
    (continues :
      ∀ id, (workspace.scheduler.track id).Continues (later.scheduler.track id)) :
    later.Aligned := by
  refine ⟨buffers, sameOpened ▸ aligned.paths, sameOpened ▸ aligned.named, ?_, ?_,
    fun id => (continues id).booked⟩
  · intro components id number found
    rw [(continues id).known, (continues id).named]
    exact aligned.served components id number (sameOpened ▸ found)
  · intro path
    rw [(continues path.text).tracked, aligned.tracked path, isOpenAs, isOpenAs, sameOpened]

theorem on
    {action : Action}
    (aligned : workspace.Aligned) (isInternal : action.isInternal = true) (id : BufferId) :
    (workspace.schedule (.on id action)).Aligned := by
  refine aligned.of_continues rfl ?_ fun other => ?_
  · simp only [schedule, Scheduler.apply, Scheduler.act_eq_update]
    exact Scheduler.nodup_keys_update aligned.buffers _ _
  · simp only [schedule, Scheduler.apply, Scheduler.track_act]
    by_cases same : id = other
    · rw [if_pos same]
      exact .act (aligned.booked other) isInternal _ _ _
    · rw [if_neg same]
      exact .refl (aligned.booked other)

theorem wait (aligned : workspace.Aligned) (milliseconds : Nat) :
    (workspace.schedule (.wait milliseconds)).Aligned :=
  ⟨aligned.buffers, aligned.paths, aligned.named, aligned.served, aligned.tracked, aligned.booked⟩

theorem advance (aligned : workspace.Aligned) (milliseconds : Nat) :
    (workspace.advance milliseconds).Aligned := by
  obtain ⟨moves, allInternal, sameOpened, sameTracks⟩ :=
    workspace.exists_run_eq_advance (fun id => (aligned.booked id).tidy) milliseconds
  have reached := run_of_isInternal aligned Aligned.wait Aligned.on allInternal
  refine reached.of_continues sameOpened.symm ?_ fun id => ?_
  · rw [Workspace.advance, Scheduler.keys_advance]
    exact aligned.buffers
  · rw [← sameTracks]
    exact .refl (reached.booked id)

/-- An open path takes in a text under the name that it was opened with, however it is written
now. -/
theorem reload
    {id : BufferId} {number : Nat}
    (aligned : workspace.Aligned)
    (found : workspace.opened.get? path.components = some (id, number)) (text : String) :
    (workspace.reload path text).Aligned := by
  by_cases unchanged :
      ((workspace.scheduler.track id).source number).document.lines = Text.documentLines text
  · have same : workspace.reload path text = workspace := by
      simp only [Workspace.reload, found, if_pos unchanged]
    rw [same]
    exact aligned
  · refine aligned.of_continues ?_ ?_ fun other => ?_
    · simp only [Workspace.reload, found, if_neg unchanged]
    · simp only [Workspace.reload, found, if_neg unchanged]
      exact Scheduler.nodup_keys_update (Scheduler.nodup_keys_update aligned.buffers _ _) _ _
    · rw [track_reload found unchanged]
      by_cases same : id = other
      · subst same
        have isOpenAs := aligned.isOpenAs_of_get? found
        rw [← aligned.tracked ⟨id⟩] at isOpenAs
        rw [if_pos rfl]
        exact .setText (aligned.booked id) isOpenAs (aligned.served _ _ _ found).1 _ _ _
      · rw [if_neg same]
        exact .refl (aligned.booked other)

/-! ### Opening and closing -/

/-- A buffer is tracked once it was opened, and the other buffers stay as they are. -/
theorem isSome_entry_openPath
    (aligned : workspace.Aligned) (path other : Path) (text : String) :
    ((workspace.openPath path text).scheduler.track other.text).entry.isSome =
      (decide (path.text = other.text) || workspace.isOpenAs other) := by
  rw [track_openPath]
  by_cases same : path.text = other.text
  · rw [if_pos same, decide_eq_true same]
    rfl
  · rw [if_neg same, decide_eq_false same, aligned.tracked]
    rfl

theorem isSome_entry_close
    (aligned : workspace.Aligned) (isOpen : workspace.isOpen path = true) (other : Path) :
    ((workspace.close path).scheduler.track other.text).entry.isSome =
      (!decide (path.text = other.text) && workspace.isOpenAs other) := by
  rw [track_close isOpen]
  by_cases same : path.text = other.text
  · rw [if_pos same, decide_eq_true same]
    rfl
  · rw [if_neg same, decide_eq_false same, aligned.tracked]
    rfl

theorem nodup_keys_openPath (aligned : workspace.Aligned) (path : Path) (text : String) :
    (Assoc.keys (workspace.openPath path text).scheduler.tracks).Nodup :=
  Scheduler.nodup_keys_update (Scheduler.nodup_keys_update aligned.buffers _ _) _ _

theorem nodup_keys_close (aligned : workspace.Aligned) (path : Path) :
    (Assoc.keys (workspace.close path).scheduler.tracks).Nodup := by
  rw [Workspace.close]
  split
  · exact Scheduler.nodup_keys_update aligned.buffers _ _
  · exact aligned.buffers

theorem openPath
    (aligned : workspace.Aligned) (named : workspace.isNamed path = true) (text : String) :
    (workspace.openPath path text).Aligned := by
  refine ⟨aligned.nodup_keys_openPath path text, Assoc.nodup_keys_put aligned.paths _ _,
    ?_, ?_, ?_, ?_⟩
  · intro components id number found
    rw [Workspace.openPath, Assoc.get?_put] at found
    by_cases same : path.components = components
    · rw [if_pos same] at found
      obtain ⟨rfl, _⟩ := Prod.mk.inj (Option.some.inj found)
      exact same
    · rw [if_neg same] at found
      exact aligned.named components id number found
  · intro components id number found
    rw [Workspace.openPath, Assoc.get?_put] at found
    by_cases same : path.components = components
    · rw [if_pos same] at found
      obtain ⟨rfl, rfl⟩ := Prod.mk.inj (Option.some.inj found)
      rw [track_openPath, if_pos rfl]
      refine ⟨?_, ?_⟩
      · simp [Scheduler.addSource, Track.openWith, Track.schedule, Track.addSource]
      · exact congrArg (·.document.id) (Track.source_addSource_self _ _)
    · rw [if_neg same] at found
      have different : path.text ≠ id := by
        rintro rfl
        exact same (aligned.named _ _ _ found)
      rw [track_openPath, if_neg different]
      exact aligned.served components id number found
  · intro other
    rw [aligned.isSome_entry_openPath, isOpenAs_openPath]
    by_cases same : path.components = other.components
    · rw [if_pos same]
      by_cases sameText : path.text = other.text
      · rw [decide_eq_true sameText, Bool.true_or]
      · rw [isOpenAs_of_isNamed named same sameText, Bool.or_false]
    · rw [if_neg same, decide_eq_false (text_ne_of_components_ne same), Bool.false_or]
  · intro id
    rw [track_openPath]
    split
    · exact (aligned.booked id).openWith _ _ _
    · exact aligned.booked id

theorem close
    (aligned : workspace.Aligned) (named : workspace.isNamed path = true) :
    (workspace.close path).Aligned := by
  by_cases isOpen : workspace.isOpen path = true
  · have openedAfter :
        (workspace.close path).opened = workspace.opened.erase path.components := by
      rw [Workspace.close, if_pos isOpen]
    refine ⟨aligned.nodup_keys_close path, ?_, ?_, ?_, ?_, ?_⟩
    · rw [openedAfter, Assoc.keys_erase]
      exact aligned.paths.filter _
    · intro components id number found
      rw [openedAfter, Assoc.get?_erase] at found
      split at found
      · cases found
      · exact aligned.named components id number found
    · intro components id number found
      rw [openedAfter, Assoc.get?_erase] at found
      split at found
      · cases found
      · rename_i different
        have otherName : path.text ≠ id := by
          rintro rfl
          exact different (aligned.named _ _ _ found)
        rw [track_close isOpen, if_neg otherName]
        exact aligned.served components id number found
    · intro other
      rw [aligned.isSome_entry_close isOpen, isOpenAs_close isOpen]
      by_cases same : path.components = other.components
      · rw [if_pos same]
        by_cases sameText : path.text = other.text
        · rw [decide_eq_true sameText]
          rfl
        · rw [isOpenAs_of_isNamed named same sameText, Bool.and_false]
      · rw [if_neg same, decide_eq_false (text_ne_of_components_ne same)]
        rfl
    · intro id
      rw [track_close isOpen]
      split
      · exact (aligned.booked id).close
      · exact aligned.booked id
  · rw [Workspace.close, if_neg isOpen]
    exact aligned

/-! ### Another name -/

/-- A path that is open under another name is open, but not under its own. -/
theorem of_not_isNamed (unnamed : workspace.isNamed path = false) :
    workspace.isOpen path = true ∧ workspace.isOpenAs path = false := by
  unfold isNamed at unnamed
  unfold isOpenAs
  cases found : workspace.opened.get? path.components with
  | none =>
      rw [found] at unnamed
      cases unnamed
  | some known =>
      rw [found] at unnamed
      exact ⟨by simp [isOpen, Assoc.contains, found], unnamed⟩

/-- Opening a path under another name makes its buffer one more that is tracked. -/
theorem tracked_openPath
    (aligned : workspace.Aligned) (unnamed : workspace.isNamed path = false) (text : String) :
    (workspace.openPath path text).scheduler.tracked = workspace.size + 1 ∧
      (workspace.openPath path text).size = workspace.size := by
  obtain ⟨isOpen, notOpenAs⟩ := of_not_isNamed unnamed
  have fresh : path.text ∉ workspace.names := by
    rw [aligned.mem_names_iff, aligned.tracked path, notOpenAs]
    exact Bool.false_ne_true
  constructor
  · rw [← length_names workspace, ← List.length_cons]
    refine Scheduler.tracked_eq_length (aligned.nodup_keys_openPath path text)
      (List.nodup_cons.mpr ⟨fresh, aligned.nodup_names⟩) fun id => ?_
    rw [aligned.isSome_entry_openPath path ⟨id⟩, List.mem_cons, aligned.mem_names_iff,
      aligned.tracked ⟨id⟩, Bool.or_eq_true, decide_eq_true_iff]
    exact or_congr_left eq_comm
  · have known : path.components ∈ Assoc.keys workspace.opened :=
      Assoc.mem_keys_iff.mpr (Option.isSome_iff_exists.mp isOpen)
    have sameLength := congrArg List.length (Assoc.keys_put_of_mem known
      (path.text, (workspace.scheduler.track path.text).sources.length))
    rw [Assoc.keys, Assoc.keys, List.length_map, List.length_map] at sameLength
    exact sameLength

/-- Closing a path under another name leaves its buffer tracked. -/
theorem tracked_close
    (aligned : workspace.Aligned) (unnamed : workspace.isNamed path = false) :
    (workspace.close path).scheduler.tracked = workspace.size ∧
      (workspace.close path).size < workspace.size := by
  obtain ⟨isOpen, notOpenAs⟩ := of_not_isNamed unnamed
  constructor
  · rw [← length_names workspace]
    refine Scheduler.tracked_eq_length (aligned.nodup_keys_close path) aligned.nodup_names
      fun id => ?_
    rw [aligned.isSome_entry_close isOpen ⟨id⟩, aligned.mem_names_iff, aligned.tracked ⟨id⟩]
    by_cases same : path.text = id
    · subst same
      simp [notOpenAs]
    · simp [same]
  · have known : path.components ∈ Assoc.keys workspace.opened :=
      Assoc.mem_keys_iff.mpr (Option.isSome_iff_exists.mp isOpen)
    have fewer : (Assoc.keys (workspace.opened.erase path.components)).length <
        (Assoc.keys workspace.opened).length := by
      rw [Assoc.keys_erase, List.length_filter_lt_length_iff_exists]
      exact ⟨path.components, known, by simp⟩
    rw [Assoc.keys, Assoc.keys, List.length_map, List.length_map] at fewer
    rw [Workspace.close, if_pos isOpen]
    exact fewer

/-! ### Every move -/

theorem apply
    {move : Move}
    (aligned : workspace.Aligned) (isFaithful : workspace.isFaithful move = true) :
    (workspace.apply move).Aligned := by
  obtain ⟨opensNamed, closesNamed⟩ := Bool.and_eq_true_iff.mp isFaithful
  cases opens : workspace.opening? move with
  | some pair =>
      obtain ⟨path, text⟩ := pair
      rw [opens] at opensNamed
      rw [(apply_of_opening opens).1]
      exact aligned.openPath opensNamed text
  | none =>
      cases move with
      | openPath path text => cases opens
      | reload path text =>
          cases found : workspace.opened.get? path.components with
          | some known => exact aligned.reload found text
          | none =>
              rw [apply_reload_of_not_opening found opens]
              exact aligned
      | close path => exact aligned.close closesNamed
      | advance milliseconds => exact aligned.advance milliseconds
      | wait milliseconds => exact aligned.wait milliseconds
      | fire id => exact aligned.on rfl id
      | finish id number => exact aligned.on rfl id

/-- A move that is not faithful opens or closes a path under another name. -/
theorem exists_of_not_isFaithful
    {move : Move} (unfaithful : workspace.isFaithful move = false) :
    ∃ path,
      workspace.isNamed path = false ∧
        ((∃ text, workspace.apply move = workspace.openPath path text) ∨
          workspace.apply move = workspace.close path) := by
  rcases Bool.and_eq_false_iff.mp unfaithful with opensOther | closesOther
  · cases opens : workspace.opening? move with
    | none =>
        rw [opens] at opensOther
        cases opensOther
    | some pair =>
        obtain ⟨path, text⟩ := pair
        rw [opens] at opensOther
        exact ⟨path, opensOther, .inl ⟨text, (apply_of_opening opens).1⟩⟩
  · cases move with
    | close path => exact ⟨path, closesOther, .inr rfl⟩
    | openPath path text => cases closesOther
    | reload path text => cases closesOther
    | advance milliseconds => cases closesOther
    | wait milliseconds => cases closesOther
    | fire id => cases closesOther
    | finish id number => cases closesOther

/-- A move that is not faithful leaves more buffers tracked than there are open paths. -/
theorem size_lt_tracked
    {move : Move}
    (aligned : workspace.Aligned) (unfaithful : workspace.isFaithful move = false) :
    (workspace.apply move).size < (workspace.apply move).scheduler.tracked := by
  obtain ⟨path, unnamed, ⟨text, opened⟩ | closed⟩ := exists_of_not_isFaithful unfaithful
  · obtain ⟨more, sameSize⟩ := aligned.tracked_openPath unnamed text
    rw [opened, more, sameSize]
    exact Nat.lt_succ_self _
  · obtain ⟨same, fewer⟩ := aligned.tracked_close unnamed
    rw [closed, same]
    exact fewer

theorem run
    {moves : List Move}
    (aligned : workspace.Aligned) (faithful : workspace.faithful moves = true) :
    (workspace.run moves).Aligned := by
  induction moves generalizing workspace with
  | nil => exact aligned
  | cons move moves inductionHypothesis =>
      obtain ⟨first, others⟩ := Bool.and_eq_true_iff.mp faithful
      exact inductionHypothesis (aligned.apply first) others

end Aligned

/-- In every run: open paths and tracked buffers are in step all along if and only if each path that
is open is opened again and closed only as it was written when it was opened. Reloading an open path
may write it in any way. -/
theorem tracks_open_paths_iff (engine : Engine) (debounce : Nat) (moves : List Move) :
    (∀ past rest, past ++ rest = moves →
        ((Workspace.start (.start engine debounce)).run past).TracksOpened) ↔
      (Workspace.start (.start engine debounce)).faithful moves = true := by
  have aligned := Aligned.start engine debounce
  induction moves using List.reverseRecOn with
  | nil =>
      refine ⟨fun _ => rfl, fun _ past rest split => ?_⟩
      obtain ⟨rfl, _⟩ := List.append_eq_nil_iff.mp split
      exact aligned.tracksOpened
  | append_singleton earlier move inductionHypothesis =>
      rw [faithful_append, Bool.and_eq_true_iff]
      constructor
      · intro allAlong
        have before : ∀ past rest, past ++ rest = earlier →
            ((Workspace.start (.start engine debounce)).run past).TracksOpened := by
          intro past rest split
          exact allAlong past (rest ++ [move]) (by rw [← List.append_assoc, split])
        have faithfulBefore := inductionHypothesis.mp before
        refine ⟨faithfulBefore, ?_⟩
        by_contra unfaithful
        have reached := aligned.run faithfulBefore
        have more := reached.size_lt_tracked (Bool.eq_false_iff.mpr unfaithful)
        have count := (allAlong (earlier ++ [move]) [] (List.append_nil _)).count
        rw [run_append, run_cons, run_nil] at count
        exact Nat.ne_of_lt more count.symm
      · rintro ⟨faithfulBefore, isFaithful⟩ past rest split
        rcases List.eq_nil_or_concat rest with rfl | ⟨others, last, rfl⟩
        · obtain rfl : past = earlier ++ [move] := by rw [← split, List.append_nil]
          rw [run_append]
          exact ((aligned.run faithfulBefore).apply isFaithful).tracksOpened
        · rw [List.concat_eq_append, ← List.append_assoc] at split
          exact inductionHypothesis.mpr faithfulBefore past others
            (List.append_inj_left' split rfl)

/-- A path that is closed under another name stays tracked. -/
example :
    let run := (Workspace.start (.start ⟨.empty, .empty, {}⟩ 250)).run
      [.openPath ⟨"d//a.sh"⟩ "echo", .close ⟨"d/a.sh"⟩]
    run.size = 0 ∧ run.scheduler.tracked = 1 := by
  decide +kernel

end Workspace

end Heredoc
