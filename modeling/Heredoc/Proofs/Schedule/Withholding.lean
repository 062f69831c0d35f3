import Heredoc.Proofs.Schedule.Skipping

/-!
# Passes that publish nothing

A pass that fails, is discarded or finds its version checked before leaves no trace but its report:
what is shown, what counts as published and what is cached stay as they were, only that a forced pass
clears the cache of its buffer when it starts. One lemma says all that an action can do to these
(`Track.effect_act`); the rest is read off its cases.
-/

namespace Heredoc

/-- What a pass can leave behind in a buffer: what is shown, the version that its entry has down as
published, and the cached version. -/
structure Visible where
  shown : Option (List Diagnostic)
  published : Option Nat
  cached : Option Nat
deriving DecidableEq

theorem Report.outcome_of_publication?
    {report : Report} {publication : Publication}
    (made : report.publication? = some publication) :
    report.outcome = .published publication.diagnostics := by
  unfold publication? at made
  cases outcome : report.outcome with
  | published diagnostics =>
      rw [outcome] at made
      rw [← Option.some.inj made]
  | unchanged => simp [outcome] at made
  | discarded => simp [outcome] at made
  | failed message => simp [outcome] at made

namespace Track

/-- What is visible of a buffer now. -/
def visible (track : Track) : Visible where
  shown := track.shown
  published := track.entry.bind Entry.published
  cached := track.cached

/-! ## One action -/

/-- All that an action can do to the passes, the reports and what is visible of a buffer. -/
inductive Effect (before after : Track) : Action → Prop where
  | rests {action : Action}
      (passes : after.passes = before.passes)
      (reports : after.reports = before.reports)
      (publishes : after.publishes = before.publishes)
      (visible : after.visible = before.visible) :
      Effect before after action
  | starts {action : Action} (pass : Pass)
      (passes : after.passes = before.passes ++ [pass])
      (reports : after.reports = before.reports)
      (publishes : after.publishes = before.publishes)
      (visible :
        after.visible =
          if pass.forced then { before.visible with cached := none } else before.visible) :
      Effect before after action
  | withholds {action : Action} (report : Report)
      (silent : report.publication? = none)
      (passes : after.passes.length ≤ before.passes.length)
      (reports : after.reports = before.reports ++ [report])
      (publishes : after.publishes = before.publishes)
      (visible : after.visible = before.visible) :
      Effect before after action
  | publishes {action : Action} (report : Report) (publication : Publication)
      (made : report.publication? = some publication)
      (passes : after.passes.length ≤ before.passes.length)
      (reports : after.reports = before.reports ++ [report])
      (publishes : after.publishes = before.publishes + 1)
      (shown : after.shown = some publication.diagnostics)
      (cached : after.cached = some publication.version) :
      Effect before after action
  | closes
      (passes : after.passes = before.passes)
      (reports : after.reports = before.reports)
      (publishes : after.publishes = before.publishes)
      (cached : after.cached = none) :
      Effect before after .close

/-- Every action has one of the effects. -/
theorem effect_act
    (engine : Engine) (debounce now : Nat) (track : Track) (action : Action) :
    track.Effect (track.act engine debounce now action) action := by
  have step := track.becomes_act engine debounce now action
  generalize track.act engine debounce now action = after at step ⊢
  cases step with
  | adds | edits | tears | rests => exact .rests rfl rfl rfl rfl
  | arms =>
      refine .rests rfl rfl rfl ?_
      simp only [schedule, visible]
      cases track.entry <;> rfl
  | forces =>
      rw [start_eq]
      refine .starts _ rfl rfl rfl ?_
      simp only [visible]
      cases track.entry <;> rfl
  | closes => exact .closes rfl rfl rfl rfl
  | @skips _ _ report tracked _ _ _ unchanged =>
      have silent : report.publication? = none :=
        Report.publication?_eq_none.mpr (by simp [unchanged])
      refine .withholds report silent (Nat.le_refl _) rfl rfl ?_
      simp only [visible, tracked]
      rfl
  | starts tracked =>
      rw [start_eq]
      refine .starts _ rfl rfl rfl ?_
      simp only [visible, tracked]
      rfl
  | @publishes pass _ diagnostics _ _ _ _ _ outcome =>
      have made : (track.ending pass).publication? = some ⟨pass.version, diagnostics⟩ := by
        rw [Report.publication?, ending, outcome]
      exact .publishes _ _ made (List.length_filter_le _ _) rfl rfl rfl rfl
  | @withholds pass _ withheld =>
      have silent : (track.ending pass).publication? = none :=
        Report.publication?_eq_none.mpr withheld
      refine .withholds _ silent (List.length_filter_le _ _) rfl rfl ?_
      simp only [visible]
      cases track.entry <;> rfl

namespace Effect

variable {before after : Track} {action : Action}

theorem of_started
    {pass : Pass} (effect : before.Effect after action)
    (started : after.passes = before.passes ++ [pass]) :
    after.publishes = before.publishes ∧
      after.visible =
        if pass.forced then { before.visible with cached := none } else before.visible := by
  have more : after.passes.length = before.passes.length + 1 := by
    rw [started, List.length_append, List.length_singleton]
  cases effect with
  | starts first passes _ publishes visible =>
      obtain rfl : first = pass := by simpa [passes] using started
      exact ⟨publishes, visible⟩
  | rests passes => rw [passes] at more; omega
  | withholds _ _ passes => omega
  | publishes _ _ _ passes => omega
  | closes passes => rw [passes] at more; omega

theorem of_withheld
    {report : Report} (effect : before.Effect after action)
    (announced : after.reports = before.reports ++ [report])
    (withheld : ∀ diagnostics, report.outcome ≠ .published diagnostics) :
    after.publishes = before.publishes ∧ after.visible = before.visible := by
  have silent : before.reports ≠ before.reports ++ [report] := by simp
  cases effect with
  | withholds _ _ _ _ publishes visible => exact ⟨publishes, visible⟩
  | publishes other publication made _ reports =>
      obtain rfl : other = report := by simpa [reports] using announced
      exact absurd (Report.outcome_of_publication? made) (withheld _)
  | rests _ reports => exact absurd (reports ▸ announced) silent
  | starts _ _ reports => exact absurd (reports ▸ announced) silent
  | closes _ reports => exact absurd (reports ▸ announced) silent

theorem of_shown_ne
    (effect : before.Effect after action) (changed : after.shown ≠ before.shown) :
    action = .close ∨
      ∃ report diagnostics,
        after.reports = before.reports ++ [report] ∧
          report.outcome = .published diagnostics ∧ after.shown = some diagnostics := by
  cases effect with
  | closes => exact .inl rfl
  | publishes report publication made _ reports _ shown =>
      exact .inr ⟨report, _, reports, Report.outcome_of_publication? made, shown⟩
  | rests _ _ _ visible => exact absurd (congrArg Visible.shown visible) changed
  | withholds _ _ _ _ _ visible => exact absurd (congrArg Visible.shown visible) changed
  | starts pass _ _ _ visible =>
      have same : after.visible.shown = before.visible.shown := by
        rw [visible]
        split <;> rfl
      exact absurd same changed

end Effect

/-! ## What is cached and counted was published -/

/-- Each publication is counted, and a cached version was published. -/
structure Accounted (track : Track) : Prop where
  counted : track.publishes = track.publications.length
  cached :
    ∀ version, track.cached = some version →
      ∃ publication ∈ track.publications, publication.version = version

theorem publications_congr
    {before after : Track} (same : after.reports = before.reports) :
    after.publications = before.publications := by
  rw [publications, publications, same]

theorem Accounted.effect
    {before after : Track} {action : Action}
    (accounted : before.Accounted) (effect : before.Effect after action) :
    after.Accounted := by
  obtain ⟨counted, cached⟩ := accounted
  cases effect with
  | rests _ reports publishes visible =>
      have samePublications := publications_congr reports
      have sameCache : after.cached = before.cached := congrArg Visible.cached visible
      refine ⟨by rw [publishes, counted, samePublications], ?_⟩
      rw [sameCache, samePublications]
      exact cached
  | starts pass _ reports publishes visible =>
      have samePublications := publications_congr reports
      refine ⟨by rw [publishes, counted, samePublications], ?_⟩
      intro version checked
      rw [samePublications]
      refine cached version ?_
      have sameCache := congrArg Visible.cached visible
      change after.cached = _ at sameCache
      rw [checked] at sameCache
      split at sameCache
      · cases sameCache
      · exact sameCache.symm
  | withholds report silent _ reports publishes visible =>
      have sequel := publications_of_reports reports
      rw [silent, Option.toList_none, List.append_nil] at sequel
      have sameCache : after.cached = before.cached := congrArg Visible.cached visible
      refine ⟨by rw [publishes, counted, sequel], ?_⟩
      rw [sameCache, sequel]
      exact cached
  | publishes report publication made _ reports publishes _ checked =>
      have sequel := publications_of_reports reports
      rw [made, Option.toList_some] at sequel
      refine ⟨?_, ?_⟩
      · rw [publishes, counted, sequel, List.length_append, List.length_singleton]
      · intro version alsoChecked
        have same : publication.version = version :=
          Option.some.inj (checked.symm.trans alsoChecked)
        rw [sequel]
        exact ⟨publication, by simp, same⟩
  | closes _ reports publishes unchecked =>
      refine ⟨by rw [publishes, counted, publications_congr reports], ?_⟩
      intro version checked
      rw [unchecked] at checked
      cases checked

end Track

namespace Assoc

variable {κ β : Type} [DecidableEq κ]

/-- The sum of a measure over all values. -/
def total (measure : β → Nat) : Assoc κ β → Nat
  | [] => 0
  | pair :: pairs => measure pair.2 + total measure pairs

theorem total_put
    {measure : β → Nat} {fallback : β} (unknown : measure fallback = 0)
    (pairs : Assoc κ β) (key : κ) (value : β) :
    total measure (pairs.put key value) + measure ((pairs.get? key).getD fallback) =
      total measure pairs + measure value := by
  induction pairs with
  | nil => simp [put, total, unknown]
  | cons pair pairs inductionHypothesis =>
      by_cases same : pair.1 = key
      · simp only [put, get?, if_pos same, Option.getD_some, total]
        omega
      · simp only [put, get?, if_neg same, total]
        omega

end Assoc

/-! ## Runs -/

namespace Scheduler

/-- The reports of all buffers. -/
def reports (scheduler : Scheduler) : List Report :=
  scheduler.tracks.flatMap fun (_, track) => track.reports

/-- A number of each track, summed up. -/
def tally (measure : Track → Nat) (scheduler : Scheduler) : Nat :=
  Assoc.total measure scheduler.tracks

theorem publishes_eq_tally (scheduler : Scheduler) :
    scheduler.publishes = scheduler.tally Track.publishes := by
  have summed :
      ∀ (tracks : Assoc BufferId Track) (total : Nat),
        tracks.foldl (fun total pair => total + pair.2.publishes) total =
          total + Assoc.total Track.publishes tracks := by
    intro tracks
    induction tracks with
    | nil => exact fun total => rfl
    | cons pair tracks inductionHypothesis =>
        intro total
        rw [List.foldl_cons, inductionHypothesis, Assoc.total, Nat.add_assoc]
  exact (summed scheduler.tracks 0).trans (Nat.zero_add _)

theorem length_filterMap_reports (scheduler : Scheduler) :
    (scheduler.reports.filterMap Report.publication?).length =
      scheduler.tally (·.publications.length) := by
  simp only [reports, tally]
  induction scheduler.tracks with
  | nil => rfl
  | cons pair tracks inductionHypothesis =>
      rw [List.flatMap_cons, List.filterMap_append, List.length_append, inductionHypothesis]
      rfl

section Tally

variable {measure : Track → Nat}

/-- An action on a buffer changes the sum by as much as it changes the number of its track. -/
theorem tally_act
    (unknown : ∀ id, measure (.empty id) = 0)
    (scheduler : Scheduler) (id : BufferId) (action : Action) :
    (scheduler.act id action).tally measure + measure (scheduler.track id) =
      scheduler.tally measure + measure ((scheduler.act id action).track id) := by
  rw [track_act, if_pos rfl, act_eq_update]
  exact Assoc.total_put (unknown id) scheduler.tracks id _

theorem tally_shutdown
    (forgets : ∀ track : Track, measure track.forget = measure track) (scheduler : Scheduler) :
    scheduler.shutdown.tally measure = scheduler.tally measure := by
  simp only [tally, shutdown]
  induction scheduler.tracks with
  | nil => rfl
  | cons pair tracks inductionHypothesis =>
      rw [List.map_cons, Assoc.total, Assoc.total, inductionHypothesis, forgets]

end Tally

theorem accounted_run
    (engine : Engine) (debounce : Nat) (moves : List Move) (id : BufferId) :
    (((Scheduler.start engine debounce).run moves).track id).Accounted := by
  have start : ((Scheduler.start engine debounce).track id).Accounted :=
    ⟨rfl, by intro version checked; cases checked⟩
  refine @track_run Track.Accounted (fun _ => True) _ id start ?_ ?_ moves fun _ _ => trivial
  · intro track now action _ accounted
    exact accounted.effect (Track.effect_act _ _ now track action)
  · rintro track ⟨counted, cached⟩
    exact ⟨counted, cached⟩

/-- The publications that were counted are those that were reported. -/
theorem publishes_run (engine : Engine) (debounce : Nat) (moves : List Move) :
    ((Scheduler.start engine debounce).run moves).tally Track.publishes =
      ((Scheduler.start engine debounce).run moves).tally (·.publications.length) := by
  induction moves using List.reverseRecOn with
  | nil => rfl
  | append_singleton past move inductionHypothesis =>
      have before := accounted_run engine debounce past
      have after := accounted_run engine debounce (past ++ [move])
      rw [run_append, run_cons, run_nil] at after ⊢
      generalize (Scheduler.start engine debounce).run past = scheduler at *
      cases move with
      | on id action =>
          have counted := @tally_act Track.publishes (fun _ => rfl) scheduler id action
          have reported :=
            @tally_act (·.publications.length) (fun _ => rfl) scheduler id action
          have sameBefore := (before id).counted
          have sameAfter := (after id).counted
          rw [apply] at sameAfter ⊢
          omega
      | wait milliseconds => exact inductionHypothesis
      | shutdown =>
          rw [apply, tally_shutdown (fun _ => rfl), tally_shutdown (fun _ => rfl)]
          exact inductionHypothesis

/-! ## One move -/

section Apply

variable {scheduler : Scheduler} {id : BufferId} {move : Move}

/-- Passes start and end only by actions on their buffer. -/
theorem exists_action_of_ne
    (changed :
      ((scheduler.apply move).track id).passes ≠ (scheduler.track id).passes ∨
        ((scheduler.apply move).track id).reports ≠ (scheduler.track id).reports) :
    ∃ action, move = .on id action := by
  rcases track_apply_cases scheduler id move with
    ⟨action, acts, _⟩ | ⟨_, forgotten⟩ | ⟨_, _, same⟩
  · exact ⟨action, acts⟩
  · rw [forgotten] at changed
    rcases changed with passes | reports
    · exact absurd rfl passes
    · exact absurd rfl reports
  · rw [same] at changed
    rcases changed with passes | reports
    · exact absurd rfl passes
    · exact absurd rfl reports

theorem effect_apply (scheduler : Scheduler) (id : BufferId) (action : Action) :
    (scheduler.track id).Effect ((scheduler.apply (.on id action)).track id) action := by
  rw [apply, track_act, if_pos rfl]
  exact Track.effect_act ..

theorem publishes_of_eq
    {action : Action}
    (same :
      ((scheduler.apply (.on id action)).track id).publishes = (scheduler.track id).publishes) :
    (scheduler.apply (.on id action)).publishes = scheduler.publishes := by
  have counted := @tally_act Track.publishes (fun _ => rfl) scheduler id action
  rw [apply] at same ⊢
  rw [publishes_eq_tally, publishes_eq_tally]
  omega

theorem visible_of_ne
    {other : BufferId} (different : other ≠ id) (action : Action) :
    ((scheduler.apply (.on id action)).track other).visible =
      (scheduler.track other).visible := by
  rw [apply, track_act, if_neg (Ne.symm different)]

/-- The start of a pass shows nowhere, but that a forced pass clears the cache of its buffer. -/
theorem visible_of_started
    {pass : Pass}
    (started :
      ((scheduler.apply move).track id).passes = (scheduler.track id).passes ++ [pass]) :
    (scheduler.apply move).publishes = scheduler.publishes ∧
      ∀ other,
        ((scheduler.apply move).track other).visible =
          if pass.forced ∧ other = id then
            { (scheduler.track other).visible with cached := none }
          else (scheduler.track other).visible := by
  obtain ⟨action, rfl⟩ := exists_action_of_ne (.inl (by rw [started]; simp))
  obtain ⟨samePublishes, visible⟩ := (effect_apply scheduler id action).of_started started
  refine ⟨publishes_of_eq samePublishes, ?_⟩
  intro other
  by_cases same : other = id
  · subst same
    simpa using visible
  · simpa [same] using visible_of_ne same action

/-- The end of a pass that does not publish shows nowhere. -/
theorem visible_of_withheld
    {report : Report}
    (announced :
      ((scheduler.apply move).track id).reports = (scheduler.track id).reports ++ [report])
    (withheld : ∀ diagnostics, report.outcome ≠ .published diagnostics) :
    (scheduler.apply move).publishes = scheduler.publishes ∧
      ∀ other,
        ((scheduler.apply move).track other).visible = (scheduler.track other).visible := by
  obtain ⟨action, rfl⟩ := exists_action_of_ne (.inr (by rw [announced]; simp))
  obtain ⟨samePublishes, visible⟩ :=
    (effect_apply scheduler id action).of_withheld announced withheld
  refine ⟨publishes_of_eq samePublishes, ?_⟩
  intro other
  by_cases same : other = id
  · subst same
    exact visible
  · exact visible_of_ne same action

theorem close_or_published_of_shown_ne
    (changed : ((scheduler.apply move).track id).shown ≠ (scheduler.track id).shown) :
    move = .on id .close ∨
      ∃ report diagnostics,
        ((scheduler.apply move).track id).reports = (scheduler.track id).reports ++ [report] ∧
          report.outcome = .published diagnostics ∧
            ((scheduler.apply move).track id).shown = some diagnostics := by
  rcases track_apply_cases scheduler id move with
    ⟨action, rfl, _⟩ | ⟨_, forgotten⟩ | ⟨_, _, same⟩
  · rcases (effect_apply scheduler id action).of_shown_ne changed with rfl | published
    · exact .inl rfl
    · exact .inr published
  · rw [forgotten] at changed
    exact absurd rfl changed
  · rw [same] at changed
    exact absurd rfl changed

/-- A natural pass over a version that was never published checks it. -/
theorem starts_of_fires
    {entry : Entry} {timer : Timer} {version : Nat}
    (accounted : (scheduler.track id).Accounted)
    (fires : scheduler.Fires id move entry timer)
    (current : ((scheduler.track id).source timer.source).document.version = version)
    (unpublished :
      ∀ publication ∈ (scheduler.track id).publications, publication.version ≠ version) :
    ∃ pass,
      ((scheduler.apply move).track id).passes = (scheduler.track id).passes ++ [pass] ∧
        pass.version = version ∧ pass.forced = false := by
  obtain ⟨rfl, armed, due⟩ := fires
  rw [apply, track_act, if_pos rfl, Track.act, Track.fireDue_of_due armed due]
  rcases Track.fire_cases scheduler.engine entry timer (scheduler.track id) with
    ⟨checked, _⟩ | ⟨_, started⟩
  · obtain ⟨publication, member, same⟩ := accounted.cached _ checked
    exact absurd (same.trans current) (unpublished publication member)
  · rw [started, Track.start_eq]
    exact ⟨_, rfl, current, rfl⟩

end Apply

/-- In every run, neither the start of a pass nor the end of one that fails, is discarded or finds its
version checked shows in any buffer, but that a forced pass clears the cache of its own when it
starts. So a version that was not published is never skipped, as many publications are counted as
were reported, and what is shown for a buffer changes only when a pass of it publishes or when it is
closed. -/
theorem withheld_passes_invisible
    (engine : Engine) (debounce : Nat) (moves : List Move) (move : Move) (id : BufferId)
    (before after : Scheduler)
    (reached : (Scheduler.start engine debounce).run moves = before)
    (left : before.apply move = after) :
    (∀ pass,
      (after.track id).passes = (before.track id).passes ++ [pass] →
        after.publishes = before.publishes ∧
          ∀ other,
            (after.track other).visible =
              if pass.forced ∧ other = id then
                { (before.track other).visible with cached := none }
              else (before.track other).visible) ∧
    (∀ report,
      (after.track id).reports = (before.track id).reports ++ [report] →
        (∀ diagnostics, report.outcome ≠ .published diagnostics) →
          after.publishes = before.publishes ∧
            ∀ other, (after.track other).visible = (before.track other).visible) ∧
    (∀ entry timer version,
      before.Fires id move entry timer →
        ((before.track id).source timer.source).document.version = version →
          (∀ publication ∈ (before.track id).publications, publication.version ≠ version) →
            ∃ pass,
              (after.track id).passes = (before.track id).passes ++ [pass] ∧
                pass.version = version ∧ pass.forced = false) ∧
    after.publishes = (after.reports.filterMap Report.publication?).length ∧
    ((after.track id).shown ≠ (before.track id).shown →
      move = .on id .close ∨
        ∃ report diagnostics,
          (after.track id).reports = (before.track id).reports ++ [report] ∧
            report.outcome = .published diagnostics ∧
              (after.track id).shown = some diagnostics) := by
  have accounted : (before.track id).Accounted := reached ▸ accounted_run engine debounce moves id
  have run : after = (Scheduler.start engine debounce).run (moves ++ [move]) := by
    rw [run_append, run_cons, run_nil, reached, left]
  have counted : after.publishes = (after.reports.filterMap Report.publication?).length := by
    rw [publishes_eq_tally, length_filterMap_reports, run]
    exact publishes_run engine debounce (moves ++ [move])
  subst left
  exact ⟨fun _ => visible_of_started, fun _ => visible_of_withheld,
    fun _ _ _ => starts_of_fires accounted, counted, close_or_published_of_shown_ne⟩

/-- The content of a buffer is published; then its snapshots claim a line too many, and a natural pass
over the next version is about to fail. -/
def failing : List Move :=
  [.on "a.sh" (.add ⟨⟨"a.sh", 3, ["echo"]⟩, false⟩), .on "a.sh" (.notify 0), .wait 250,
    .on "a.sh" .fire, .on "a.sh" (.finish 0), .on "a.sh" (.edit 0 (.setText "echo 1")),
    .on "a.sh" (.tear 0 true), .on "a.sh" (.notify 0), .wait 250, .on "a.sh" .fire]

/-- The pass that fails leaves what is shown, and the next natural pass is not skipped. -/
theorem withheld_passes_invisible_failing :
    (((Scheduler.start ⟨.empty, .empty, {}⟩ 250).run
        (failing ++ [.on "a.sh" (.finish 1)])).track "a.sh").visible =
      ⟨some [], some 3, some 3⟩ ∧
    ∃ pass,
      (((Scheduler.start ⟨.empty, .empty, {}⟩ 250).run
          (failing ++ [.on "a.sh" (.finish 1), .on "a.sh" (.notify 0), .wait 250] ++
            [.on "a.sh" .fire])).track "a.sh").passes = [pass] ∧
        pass.version = 4 ∧ pass.forced = false := by
  let failed : Report :=
    ⟨500, "a.sh", 4, false, .failed "buffer a.sh reports 2 lines but line 1 is missing", some 1⟩
  have announced :
      (((Scheduler.start ⟨.empty, .empty, {}⟩ 250).run
          (failing ++ [.on "a.sh" (.finish 1)])).track "a.sh").reports =
        (((Scheduler.start ⟨.empty, .empty, {}⟩ 250).run failing).track "a.sh").reports ++
          [failed] := by
    decide +kernel
  have still :
      (((Scheduler.start ⟨.empty, .empty, {}⟩ 250).run
        (failing ++ [.on "a.sh" (.finish 1), .on "a.sh" (.notify 0), .wait 250])).track
          "a.sh").passes = [] :=
    List.eq_nil_of_length_eq_zero (by decide +kernel)
  rw [run_append] at announced ⊢
  constructor
  · have ended :=
      (withheld_passes_invisible ⟨.empty, .empty, {}⟩ 250 failing (.on "a.sh" (.finish 1)) "a.sh"
        _ _ rfl rfl).2.1 failed announced (by intro diagnostics; simp [failed])
    exact (ended.2 "a.sh").trans (by decide +kernel)
  · obtain ⟨pass, started, version, forced⟩ :=
      (withheld_passes_invisible ⟨.empty, .empty, {}⟩ 250
        (failing ++ [.on "a.sh" (.finish 1), .on "a.sh" (.notify 0), .wait 250])
        (.on "a.sh" .fire) "a.sh" _ _ rfl rfl).2.2.1
        ⟨.pending, 3, some ⟨750, 3, 0⟩, 0, some 3⟩ ⟨750, 3, 0⟩ 4
        ⟨rfl, by decide +kernel, by decide +kernel⟩ (by decide +kernel) (by decide +kernel)
    rw [still] at started
    exact ⟨pass, started, version, forced⟩

end Scheduler

end Heredoc
