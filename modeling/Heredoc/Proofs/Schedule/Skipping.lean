import Heredoc.Proofs.Schedule.Publication

/-!
# Versions that are not checked again

A timer that fires skips the version that is cached. That is sound, for what is shown was then found
in the document as it is; and it spares work, for a published version stays cached until the
document is edited, a pass is forced or the buffer is closed.
-/

namespace Heredoc

/-- Whether the move edits the document of the buffer, forces a pass or closes the buffer. -/
def Move.renews (id : BufferId) : Move → Bool
  | .on other (.edit ..) | .on other (.force _) | .on other .close => other = id
  | _ => false

namespace Track

variable {engine : Engine} {number version : Nat} {track : Track}

/-- The version is cached, and the document of the source has it. -/
def Caches (number version : Nat) (track : Track) : Prop :=
  track.cached = some version ∧ (track.source number).document.version = version

/-! ## A natural pass over a cached version -/

/-- The track after the timer of the entry has fired and its pass found the version cached: the pass
is reported, and nothing else has changed but the entry. -/
def skip (entry : Entry) (timer : Timer) (version : Nat) (track : Track) : Track :=
  { track with
    entry := some entry.skip
    reports := track.reports ++
      [{ time := timer.due, buffer := track.id, version, forced := false,
         outcome := .unchanged, number := none }] }

theorem fire_of_caches
    {timer : Timer}
    (caches : track.Caches timer.source version) (engine : Engine) (entry : Entry) :
    track.fire engine entry timer = track.skip entry timer version := by
  obtain ⟨checked, rfl⟩ := caches
  rw [fire, if_pos checked]
  rfl

theorem outcomeOf_ne_unchanged (track : Track) (pass : Pass) :
    track.outcomeOf pass ≠ .unchanged := by
  unfold outcomeOf
  cases pass.result with
  | error missing => simp
  | ok diagnostics => cases track.accepts pass <;> simp

/-- A pass that is reported as unchanged leaves shown what the engine finds in the document. -/
theorem shown_of_unchanged
    {action : Action} {report : Report}
    (serves : track.Serves engine number) (debounce now : Nat)
    (announced :
      (track.act engine debounce now action).reports = track.reports ++ [report])
    (unchanged : report.outcome = .unchanged) :
    ∃ diagnostics,
      (track.act engine debounce now action).shown = some diagnostics ∧
        engine.diagnose
          ((track.act engine debounce now action).source number).document.view =
            .ok diagnostics := by
  have silent : track.reports ≠ track.reports ++ [report] := by simp
  have step := track.becomes_act engine debounce now action
  generalize track.act engine debounce now action = after at step announced ⊢
  cases step with
  | adds | edits | tears | arms | closes | rests => exact absurd announced silent
  | forces | starts =>
      rw [start_eq] at announced
      exact absurd announced silent
  | skips tracked armed _ checked =>
      -- The cached version is that of the document, so what is shown was found in it.
      rw [serves.timer _ _ tracked armed] at checked
      obtain ⟨diagnostics, shown, diagnosed⟩ := (serves.cached _ checked).2 rfl
      exact ⟨diagnostics, shown, diagnosed⟩
  | @publishes pass | @withholds pass =>
      have same : track.ending pass = report := by simpa using announced
      rw [← same] at unchanged
      exact absurd unchanged (outcomeOf_ne_unchanged track pass)

/-! ## How long a version stays cached -/

/-- What an action publishes is cached. -/
theorem caches_of_publication
    {action : Action} {publication : Publication}
    (serves : track.Serves engine number) (debounce now : Nat)
    (made :
      (track.act engine debounce now action).publications =
        track.publications ++ [publication]) :
    (track.act engine debounce now action).Caches number publication.version := by
  have silent : track.publications ≠ track.publications ++ [publication] := by simp
  have step := track.becomes_act engine debounce now action
  generalize track.act engine debounce now action = after at step made ⊢
  cases step with
  | adds | edits | tears | arms | closes | rests => exact absurd made silent
  | forces | starts =>
      rw [start_eq] at made
      exact absurd made silent
  | @skips _ _ report _ _ _ _ unchanged =>
      have noneMade : report.publication? = none :=
        Report.publication?_eq_none.mpr (by simp [unchanged])
      rw [publications_of_silent rfl noneMade] at made
      exact absurd made silent
  | @publishes pass _ diagnostics member _ found current _ outcome =>
      have same : (⟨pass.version, diagnostics⟩ : Publication) = publication := by
        simpa [publications, Report.publication?, ending, outcome] using made
      rw [← same]
      exact ⟨rfl, (serves.diagnose_of_published member current found).1.symm⟩
  | withholds _ withheld =>
      rw [publications_of_silent rfl (Report.publication?_eq_none.mpr withheld)] at made
      exact absurd made silent

/-- Only an edit, a forced pass or a closing ends it that a version is cached: a pass that publishes
meanwhile has read the same version. -/
theorem Caches.act
    {action : Action}
    (caches : track.Caches number version)
    (serves : track.Serves engine number) (own : action.serves number = true)
    {id : BufferId} (kept : (Move.on id action).renews id = false)
    (debounce now : Nat) :
    (track.act engine debounce now action).Caches number version := by
  obtain ⟨checked, current⟩ := caches
  have step := track.becomes_act engine debounce now action
  generalize track.act engine debounce now action = after at step ⊢
  cases step with
  | adds => cases own
  | edits | forces | closes => simp [Move.renews] at kept
  | tears other torn =>
      obtain rfl : other = number := of_decide_eq_true own
      refine ⟨checked, ?_⟩
      rcases track.source_modifySource_self other ({ · with torn }) with changed | same
      · rw [changed]
        exact current
      · rw [same]
        exact current
  | arms | rests | skips | withholds => exact ⟨checked, current⟩
  | starts =>
      rw [start_eq]
      exact ⟨checked, current⟩
  | publishes member _ found read =>
      -- The cache is written anew, with the version that the document still has.
      have sameVersion := (serves.diagnose_of_published member read found).1
      exact ⟨congrArg some (sameVersion.trans current), current⟩

end Track

/-! ## Runs -/

namespace Scheduler

variable {scheduler : Scheduler} {id : BufferId} {number version : Nat}

theorem shown_of_unchanged_apply
    {move : Move} {report : Report}
    (serves : (scheduler.track id).Serves scheduler.engine number)
    (announced :
      ((scheduler.apply move).track id).reports = (scheduler.track id).reports ++ [report])
    (unchanged : report.outcome = .unchanged) :
    ∃ diagnostics,
      ((scheduler.apply move).track id).shown = some diagnostics ∧
        scheduler.engine.diagnose
          (((scheduler.apply move).track id).source number).document.view = .ok diagnostics := by
  have silent : (scheduler.track id).reports ≠ (scheduler.track id).reports ++ [report] := by simp
  rcases track_apply_cases scheduler id move with
    ⟨action, rfl, acted⟩ | ⟨rfl, forgotten⟩ | ⟨_, _, same⟩
  · rw [acted] at announced ⊢
    exact Track.shown_of_unchanged serves _ _ announced unchanged
  · rw [forgotten] at announced
    exact absurd announced silent
  · rw [same] at announced
    exact absurd announced silent

theorem caches_of_publication_apply
    {move : Move} {publication : Publication}
    (serves : (scheduler.track id).Serves scheduler.engine number)
    (made :
      ((scheduler.apply move).track id).publications =
        (scheduler.track id).publications ++ [publication]) :
    ((scheduler.apply move).track id).Caches number publication.version := by
  have silent :
      (scheduler.track id).publications ≠ (scheduler.track id).publications ++ [publication] := by
    simp
  rcases track_apply_cases scheduler id move with
    ⟨action, rfl, acted⟩ | ⟨rfl, forgotten⟩ | ⟨_, _, same⟩
  · rw [acted] at made ⊢
    exact Track.caches_of_publication serves _ _ made
  · rw [forgotten] at made
    exact absurd made silent
  · rw [same] at made
    exact absurd made silent

/-- A cached version stays cached in every run without an edit, a forced pass or a closing. -/
theorem caches_run
    {moves : List Move}
    (serves : (scheduler.track id).Serves scheduler.engine number)
    (caches : (scheduler.track id).Caches number version)
    (sole : ∀ move ∈ moves, move.serves number = true)
    (calm : ∀ move ∈ moves, move.renews id = false) :
    ((scheduler.run moves).track id).Caches number version := by
  let kept (track : Track) : Prop :=
    track.Serves scheduler.engine number ∧ track.Caches number version
  let allowed (action : Action) : Prop :=
    action.serves number = true ∧ (Move.on id action).renews id = false
  refine (@track_run kept allowed scheduler id ⟨serves, caches⟩ ?_ ?_ moves ?_).2
  · rintro track now action ⟨own, kept⟩ ⟨served, cached⟩
    exact ⟨served.act own _ now, cached.act served own kept _ now⟩
  · rintro track ⟨served, cached⟩
    exact ⟨served.forget, cached⟩
  · intro action member
    exact ⟨sole (.on id action) member, calm (.on id action) member⟩

/-- The timer of the buffer fires with this move, and a natural pass starts. -/
def Fires (scheduler : Scheduler) (id : BufferId) (move : Move) (entry : Entry) (timer : Timer) :
    Prop :=
  move = .on id .fire ∧ (scheduler.track id).armed? = some (entry, timer) ∧
    timer.due ≤ scheduler.now

/-- A pass of the buffer published this version in the run, and since then its document was not
edited, no pass was forced and the buffer was not closed. -/
def Retains (scheduler : Scheduler) (id : BufferId) (version : Nat) (moves : List Move) : Prop :=
  ∃ past publishing calm diagnostics,
    moves = past ++ publishing :: calm ∧
      ((scheduler.run (past ++ [publishing])).track id).publications =
          ((scheduler.run past).track id).publications ++ [⟨version, diagnostics⟩] ∧
        ∀ move ∈ calm, move.renews id = false

variable (engine : Engine) (debounce : Nat) (documents : List Document)

theorem serves_hosting
    (id : BufferId) {moves : List Move}
    (sole : ∀ move ∈ moves, move.serves 0 = true) :
    (((hosting engine debounce documents).run moves).track id).Serves
      ((hosting engine debounce documents).run moves).engine 0 := by
  rw [engine_run, engine_hosting]
  exact serves_run engine debounce documents id sole

/-- What was published and not touched since is cached. -/
theorem caches_of_retains
    {moves : List Move}
    (sole : ∀ move ∈ moves, move.serves 0 = true)
    (published : (hosting engine debounce documents).Retains id version moves) :
    (((hosting engine debounce documents).run moves).track id).Caches 0 version := by
  obtain ⟨past, publishing, calm, diagnostics, rfl, made, quiet⟩ := published
  have solePast : ∀ move ∈ past, move.serves 0 = true :=
    fun move member => sole move (List.mem_append_left _ member)
  have soleFirst : ∀ move ∈ past ++ [publishing], move.serves 0 = true := by
    intro move member
    rw [← List.singleton_append, ← List.append_assoc] at sole
    exact sole move (List.mem_append_left _ member)
  have soleCalm : ∀ move ∈ calm, move.serves 0 = true :=
    fun move member => sole move (by simp [member])
  have before := serves_hosting engine debounce documents id solePast
  have after := serves_hosting engine debounce documents id soleFirst
  have whole : past ++ publishing :: calm = past ++ [publishing] ++ calm := by simp
  rw [whole, run_append]
  refine caches_run after ?_ soleCalm quiet
  rw [run_append, run_cons, run_nil] at made ⊢
  exact caches_of_publication_apply before made

/-- In every run over one document for each buffer: if a natural pass reports that nothing changed,
what the engine finds in the document is shown; and a natural pass that starts after the version
was published, with no edit, forced pass or closing since, reports just that and changes nothing
else but the entry: no validator runs, and what is shown, published and cached stays. -/
theorem checked_version_skipped
    (moves : List Move) (move : Move) (id : BufferId) (before after : Track)
    (sole : ∀ other ∈ moves ++ [move], other.serves 0 = true)
    (reached : ((hosting engine debounce documents).run moves).track id = before)
    (left : ((hosting engine debounce documents).run (moves ++ [move])).track id = after) :
    (∀ report,
      after.reports = before.reports ++ [report] → report.outcome = .unchanged →
        ∃ diagnostics,
          after.shown = some diagnostics ∧
            engine.diagnose (after.source 0).document.view = .ok diagnostics) ∧
      ∀ version entry timer,
        (hosting engine debounce documents).Retains id version moves →
          ((hosting engine debounce documents).run moves).Fires id move entry timer →
            after = before.skip entry timer version := by
  have soleBefore : ∀ other ∈ moves, other.serves 0 = true :=
    fun other member => sole other (List.mem_append_left _ member)
  have serves := serves_hosting engine debounce documents id soleBefore
  rw [run_append, run_cons, run_nil] at left
  constructor
  · intro report announced unchanged
    subst reached left
    have found := shown_of_unchanged_apply serves announced unchanged
    rwa [engine_run, engine_hosting] at found
  · rintro version entry timer published ⟨rfl, armed, due⟩
    have caches := caches_of_retains engine debounce documents soleBefore published
    obtain ⟨tracked, holds⟩ := Track.armed?_eq_some.mp armed
    have source : timer.source = 0 := serves.timer entry timer tracked holds
    rw [apply, track_act, if_pos rfl, Track.act, Track.fireDue_of_due armed due,
      Track.fire_of_caches (source ▸ caches), reached] at left
    exact left.symm

/-- A buffer is opened, its content is published, and it is saved. -/
def saved : List Move :=
  [.on "a.sh" (.notify 0), .wait 250, .on "a.sh" .fire, .on "a.sh" (.finish 0),
    .on "a.sh" (.notify 0), .wait 250]

theorem checked_version_skipped_saved :
    (((hosting ⟨.empty, .empty, {}⟩ 250 [⟨"a.sh", 3, ["echo"]⟩]).run
        (saved ++ [.on "a.sh" .fire])).track "a.sh").reports.map Report.outcome =
      [.published [], .unchanged] := by
  have published :
      (hosting ⟨.empty, .empty, {}⟩ 250 [⟨"a.sh", 3, ["echo"]⟩]).Retains "a.sh" 3 saved :=
    ⟨saved.take 3, .on "a.sh" (.finish 0), saved.drop 4, [], rfl, by decide +kernel, by decide⟩
  have skipped :=
    (checked_version_skipped ⟨.empty, .empty, {}⟩ 250 [⟨"a.sh", 3, ["echo"]⟩] saved
      (.on "a.sh" .fire) "a.sh" _ _ (by decide) rfl rfl).2 3
      ⟨.pending, 2, some ⟨500, 2, 0⟩, 0, some 3⟩ ⟨500, 2, 0⟩ published
      ⟨rfl, by decide, by decide⟩
  rw [skipped]
  decide +kernel

end Scheduler

end Heredoc
