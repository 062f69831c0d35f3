import Heredoc.Proofs.Schedule.Clock
import Heredoc.Proofs.Schedule.Convergence

/-!
# Opening a buffer anew

A buffer that is opened gets a new source, whose document starts at version zero. The cache, the
entry and the passes in flight do not know that. If nothing of the buffer is cached and no pass in
flight can still publish, the new source serves the buffer. Otherwise the passes in flight and the
timer can come in an order in which the new content is never shown.
-/

namespace Heredoc

namespace Track

/-- The track has no armed timer and no pass in flight. -/
def AtRest (track : Track) : Prop :=
  track.armed? = none ∧ track.passes = []

/-- Whether nothing is cached and each pass in flight has read a source that has moved on. -/
def isUnread (track : Track) : Bool :=
  track.cached.isNone &&
    track.passes.all fun pass =>
      (track.source pass.source).document.version ≠ pass.version

/-- The buffer is opened: it gets a new source and is to be checked. -/
def openWith (debounce now : Nat) (document : Document) (track : Track) : Track :=
  (track.addSource ⟨document, false⟩).schedule debounce now track.sources.length

/-! ## The books of a watched buffer -/

/-- What is known of a buffer that is never forced and never torn: all that was read was read from
a source that is there, the entry has noted the version that is cached, and something is shown if
and only if something is cached. -/
structure Booked (track : Track) : Prop where
  tidy : track.Tidy
  whole : ∀ number, (track.source number).torn = false
  timer :
    ∀ entry timer,
      track.entry = some entry → entry.timer = some timer →
        timer.source < track.sources.length
  passes :
    ∀ pass ∈ track.passes,
      pass.source < track.sources.length ∧ ∃ diagnostics, pass.result = .ok diagnostics
  noted : track.cached = track.entry.bind Entry.published
  shown : track.shown.isSome = track.cached.isSome

namespace Booked

variable {engine : Engine} {track : Track}

theorem empty (id : BufferId) : (Track.empty id).Booked :=
  ⟨.empty id, by simp [Track.source, Track.empty], by simp [Track.empty], by simp [Track.empty],
    rfl, rfl⟩

theorem addSource
    {source : Source}
    (booked : track.Booked) (whole : source.torn = false) :
    (track.addSource source).Booked := by
  have grown : track.sources.length < (track.addSource source).sources.length := by
    simp [Track.addSource]
  refine ⟨⟨booked.tidy.distinct, booked.tidy.below, booked.tidy.entry⟩, ?_, ?_, ?_, booked.noted,
    booked.shown⟩
  · exact torn_addSource booked.whole whole
  · intro entry timer tracked armed
    exact Nat.lt_trans (booked.timer entry timer tracked armed) grown
  · intro pass member
    obtain ⟨known, read⟩ := booked.passes pass member
    exact ⟨Nat.lt_trans known grown, read⟩

theorem edit
    (booked : track.Booked) (number : Nat) (edit : Edit) :
    (track.modifySource number (·.edit edit)).Booked := by
  have count :
      (track.modifySource number (·.edit edit)).sources.length = track.sources.length := by
    simp [modifySource]
  refine ⟨⟨booked.tidy.distinct, booked.tidy.below, booked.tidy.entry⟩, ?_, ?_, ?_, booked.noted,
    booked.shown⟩
  · intro other
    by_cases same : number = other
    · subst same
      rcases track.source_modifySource_self number (·.edit edit) with changed | unchanged
      · rw [changed]
        exact booked.whole number
      · rw [unchanged]
        exact booked.whole number
    · rw [track.source_modifySource_of_ne _ same]
      exact booked.whole other
  · rw [count]
    exact booked.timer
  · rw [count]
    exact booked.passes

theorem schedule
    {number : Nat}
    (booked : track.Booked) (known : number < track.sources.length) (debounce now : Nat) :
    (track.schedule debounce now number).Booked := by
  refine ⟨booked.tidy.schedule debounce now number, booked.whole, ?_, booked.passes,
    ?_, booked.shown⟩
  · intro entry timer tracked armed
    rw [← Option.some.inj tracked] at armed
    rw [← Option.some.inj armed]
    exact known
  · have same :
        (track.schedule debounce now number).entry.bind Entry.published =
          track.entry.bind Entry.published := by
      rw [Track.schedule]
      cases track.entry <;> rfl
    exact booked.noted.trans same.symm

theorem close (booked : track.Booked) : track.close.Booked :=
  ⟨⟨booked.tidy.distinct, booked.tidy.below, by simp [Track.close]⟩, booked.whole,
    by simp [Track.close], booked.passes, rfl, rfl⟩

/-- A pass that starts has read a source that is there. -/
theorem passes_start
    {number : Nat}
    (booked : track.Booked) (known : number < track.sources.length)
    (engine : Engine) (now : Nat) (forced : Bool) (entry : Option Entry) :
    ∀ pass ∈ (Track.start engine now forced number { track with entry }).passes,
      pass.source < track.sources.length ∧ ∃ diagnostics, pass.result = .ok diagnostics := by
  intro pass member
  rw [start_eq] at member
  rcases List.mem_append.mp member with earlier | latest
  · exact booked.passes pass earlier
  · rw [List.mem_singleton.mp latest]
    exact ⟨known, Source.exists_diagnose_view (booked.whole number) engine⟩

/-- The firing of the timer and the end of a pass keep the books. -/
theorem act
    {action : Action}
    (booked : track.Booked) (isInternal : action.isInternal = true)
    (engine : Engine) (debounce now : Nat) :
    (track.act engine debounce now action).Booked := by
  have tidy := booked.tidy.act engine debounce now action
  have noted := booked.noted
  have step := track.becomes_act engine debounce now action
  generalize track.act engine debounce now action = after at tidy step ⊢
  cases step with
  | adds | edits | tears | arms | forces | closes => cases isInternal
  | rests => exact booked
  | skips tracked =>
      rw [tracked] at noted
      refine ⟨tidy, booked.whole, ?_, booked.passes, noted, booked.shown⟩
      intro left other found rearmed
      rw [← Option.some.inj found] at rearmed
      cases rearmed
  | @starts entry timer tracked armed =>
      rw [tracked] at noted
      have passes :=
        booked.passes_start (booked.timer entry timer tracked armed) engine timer.due false
          (some ({ entry with timer := none } : Entry).enter)
      rw [start_eq] at tidy passes ⊢
      refine ⟨tidy, booked.whole, ?_, passes, noted, booked.shown⟩
      intro entered other found rearmed
      rw [← Option.some.inj found] at rearmed
      cases rearmed
  | @publishes pass entry _ member tracked =>
      refine ⟨tidy, booked.whole, ?_, ?_, rfl, rfl⟩
      · intro left timer leftTracked armed
        rw [← Option.some.inj leftTracked] at armed
        exact booked.timer entry timer tracked armed
      · intro other kept
        exact booked.passes other (List.mem_filter.mp kept).1
  | @withholds pass member =>
      refine ⟨tidy, booked.whole, ?_, ?_, ?_, booked.shown⟩
      · intro left timer leftTracked armed
        obtain ⟨entry, tracked, rfl⟩ := Option.map_eq_some_iff.mp leftTracked
        exact booked.timer entry timer tracked armed
      · intro other kept
        exact booked.passes other (List.mem_filter.mp kept).1
      · change track.cached = _
        rw [noted]
        cases track.entry <;> rfl

theorem complete
    {pass : Pass}
    (booked : track.Booked) (member : pass ∈ track.passes) :
    (track.complete pass).Booked := by
  have isInternal : (Action.finish pass.number).isInternal = true := rfl
  have ended := booked.act isInternal ⟨.empty, .empty, {}⟩ 0 0
  rwa [Track.act, booked.tidy.finish_eq_complete member] at ended

theorem openWith
    (booked : track.Booked) (debounce now : Nat) (document : Document) :
    (track.openWith debounce now document).Booked := by
  refine (booked.addSource rfl).schedule ?_ debounce now
  simp [Track.addSource]

end Booked

/-! ## A buffer of which nothing was read -/

variable {engine : Engine} {track : Track}

theorem isUnread_eq_true :
    track.isUnread = true ↔
      track.cached = none ∧
        ∀ pass ∈ track.passes,
          (track.source pass.source).document.version ≠ pass.version := by
  simp [isUnread]

/-- The new source serves a buffer of which nothing was read. -/
theorem followed_openWith
    (booked : track.Booked) (unread : track.isUnread = true)
    (debounce now : Nat) (document : Document) :
    (track.openWith debounce now document).Followed engine track.sources.length True := by
  obtain ⟨unchecked, moved⟩ := isUnread_eq_true.mp unread
  have unpublished : track.entry.bind Entry.published = none := booked.noted ▸ unchecked
  have newSource :
      (track.openWith debounce now document).source track.sources.length = ⟨document, false⟩ :=
    track.source_addSource_self ⟨document, false⟩
  refine ⟨(booked.openWith debounce now document).tidy, ⟨?_, ?_, ?_, ?_⟩, ?_,
    fun _ => Covered.schedule debounce now _⟩
  · intro entry timer tracked armed
    rw [← Option.some.inj tracked] at armed
    rw [← Option.some.inj armed]
  · intro pass member
    have known : pass.source < track.sources.length := (booked.passes pass member).1
    have same :
        (track.openWith debounce now document).source pass.source = track.source pass.source :=
      source_addSource_of_lt known ⟨document, false⟩
    refine .inr ⟨Nat.ne_of_lt known, ?_⟩
    rw [same]
    exact moved pass member
  · intro entry version tracked published
    rw [← Option.some.inj tracked] at published
    cases before : track.entry with
    | none => simp [addSource, Entry.arm, before] at published
    | some known => simp_all [addSource, Entry.arm]
  · intro version cached
    have noneCached : track.cached = some version := cached
    rw [unchecked] at noneCached
    cases noneCached
  · rw [newSource]

/-! ## What is left to do -/

/-- What is left to do for a track: its passes end, its timer fires, and the pass that this starts
ends. -/
def remaining (track : Track) : List Action :=
  track.passes.map (fun pass => .finish pass.number) ++ [.fire, .finish track.started]

theorem isInternal_remaining (track : Track) :
    ∀ action ∈ track.remaining, action.isInternal = true := by
  intro action member
  rcases List.mem_append.mp member with ending | last
  · obtain ⟨pass, _, rfl⟩ := List.mem_map.mp ending
    rfl
  · rcases List.mem_pair.mp last with rfl | rfl
    · rfl
    · rfl

/-- Ends these passes, one after another. -/
def finishAll (passes : List Pass) (track : Track) : Track :=
  passes.foldl (fun track pass => track.finish pass.number) track

theorem foldl_remaining (engine : Engine) (debounce now : Nat) (track start : Track) :
    track.remaining.foldl (act engine debounce now) start =
      (((start.finishAll track.passes).fireDue engine now).finish track.started) := by
  rw [remaining, List.foldl_append, List.foldl_map]
  rfl

/-- What the end of every pass keeps holds when all passes have ended. -/
theorem finishAll_passes
    {kept : Track → Prop}
    (ends : ∀ track pass, kept track → pass ∈ track.passes → kept (track.complete pass)) :
    ∀ (passes : List Pass) (track : Track),
      track.passes = passes → track.Tidy → kept track →
        kept (track.finishAll passes) ∧ (track.finishAll passes).passes = []
  | [], track, still, _, held => ⟨held, still⟩
  | first :: rest, track, inFlight, tidy, held => by
      have member : first ∈ track.passes := inFlight ▸ List.mem_cons_self
      have others : (track.complete first).passes = rest := by
        have distinct := tidy.distinct
        rw [passes_complete, inFlight]
        rw [inFlight] at distinct
        exact filter_number_cons distinct
      rw [finishAll, List.foldl_cons, tidy.finish_eq_complete member]
      exact finishAll_passes ends rest (track.complete first) others (tidy.complete member)
        (ends track first held member)

theorem finish_of_still
    (still : track.passes = []) (number : Nat) :
    track.finish number = track := by
  rw [finish, still]
  rfl

theorem armed?_eq_none : track.armed? = none ↔ track.entry.bind Entry.timer = none := by
  cases tracked : track.entry with
  | none => simp [armed?, tracked]
  | some entry => simp [armed?, tracked]

theorem finish_of_alone
    {pass : Pass} (alone : track.passes = [pass]) :
    track.finish pass.number = track.complete pass ∧ (track.complete pass).passes = [] := by
  constructor
  · simp [finish, alone]
  · simp [passes_complete, alone]

/-- A timer that fires on a track without passes leaves it at rest when the pass that it starts, if
any, has ended. What is shown stays if what is cached is no older than what the timer is about. -/
theorem fire_finish
    (still : track.passes = []) (engine : Engine) (entry : Entry) (timer : Timer) :
    ((track.fire engine entry timer).finish track.started).AtRest ∧
      ∀ version,
        track.cached = some version → entry.published = some version →
          (track.source timer.source).document.version ≤ version →
            ((track.fire engine entry timer).finish track.started).shown = track.shown := by
  rcases fire_cases engine entry timer track with
    ⟨_, report, _, skipped⟩ | ⟨unread, started⟩
  · have left : (track.fire engine entry timer).passes = [] := by
      rw [skipped]
      exact still
    rw [finish_of_still left, skipped]
    exact ⟨⟨rfl, still⟩, fun _ _ _ _ => rfl⟩
  · let entered : Track := { track with entry := some ({ entry with timer := none } : Entry).enter }
    let pass : Pass := begun engine timer.due false timer.source entered
    have alone : (track.fire engine entry timer).passes = [pass] := by
      rw [started, start_eq]
      exact congrArg (· ++ [pass]) still
    have unarmed : (track.fire engine entry timer).entry.bind Entry.timer = none := by
      rw [started, start_eq]
      rfl
    obtain ⟨ended, none⟩ := finish_of_alone alone
    have last :
        (track.fire engine entry timer).finish track.started =
          (track.fire engine entry timer).complete pass := ended
    rw [last]
    refine ⟨⟨armed?_eq_none.mpr ?_, none⟩, ?_⟩
    · rw [timer_complete, unarmed]
    · intro version cached published older
      rcases complete_cases (track.fire engine entry timer) pass with
        ⟨left, _, tracked, _, _, newest, _, _⟩ | ⟨_, withheld⟩
      · -- The pass would have to be as new as what was cached, and then it would not have started.
        have noted : left.published = some version := by
          rw [started, start_eq] at tracked
          rw [← Option.some.inj tracked]
          exact published
        have same : version = (track.source timer.source).document.version :=
          Nat.le_antisymm (newest version noted) older
        exact absurd (same ▸ cached) unread
      · rw [withheld, started, start_eq]

/-- A track whose timer is due comes to rest. -/
theorem atRest_remaining
    {now : Nat}
    (tidy : track.Tidy)
    (due : ∀ timer, track.entry.bind Entry.timer = some timer → timer.due ≤ now)
    (engine : Engine) (debounce : Nat) :
    (track.remaining.foldl (act engine debounce now) track).AtRest := by
  let kept (later : Track) : Prop :=
    later.entry.bind Entry.timer = track.entry.bind Entry.timer ∧ later.started = track.started
  have ends : ∀ later pass, kept later → pass ∈ later.passes → kept (later.complete pass) := by
    rintro later pass ⟨sameTimer, sameStarted⟩ _
    exact ⟨(timer_complete later pass).trans sameTimer,
      (started_complete later pass).trans sameStarted⟩
  obtain ⟨⟨sameTimer, sameStarted⟩, still⟩ :=
    finishAll_passes ends track.passes track rfl tidy ⟨rfl, rfl⟩
  rw [foldl_remaining, ← sameStarted]
  generalize track.finishAll track.passes = done at *
  cases armed : done.armed? with
  | none =>
      have idle : done.fireDue engine now = done := by
        rw [fireDue, armed]
      rw [idle, finish_of_still still]
      exact ⟨armed, still⟩
  | some pair =>
      obtain ⟨entry, timer⟩ := pair
      obtain ⟨tracked, holds⟩ := armed?_eq_some.mp armed
      have timerDue : timer.due ≤ now := by
        refine due timer ?_
        rw [← sameTimer, tracked]
        exact holds
      rw [fireDue_of_due armed timerDue]
      exact (fire_finish still engine entry timer).1

/-! ## A buffer of which something was read -/

theorem isUnread_eq_false :
    track.isUnread = false ↔
      track.cached.isSome = true ∨
        ∃ pass ∈ track.passes,
          (track.source pass.source).document.version = pass.version := by
  rw [← Bool.not_eq_true, isUnread_eq_true, not_and_or, Option.isSome_iff_ne_none]
  simp

/-- Something was read of the buffer that can be taken for its content, while its timer is about a
source that is as old as can be. -/
structure Overtaken (timer : Timer) (track : Track) : Prop where
  booked : track.Booked
  armed : track.entry.bind Entry.timer = some timer
  read : track.isUnread = false
  fresh : (track.source timer.source).document.version = 0

namespace Overtaken

theorem openWith
    {document : Document}
    (booked : track.Booked) (read : track.isUnread = false)
    (fresh : document.version = 0) (debounce now : Nat) :
    (track.openWith debounce now document).Overtaken
      ⟨now + debounce, (track.entry.getD {}).generation + 1, track.sources.length⟩ := by
  refine ⟨booked.openWith debounce now document, rfl, ?_, ?_⟩
  · rcases isUnread_eq_false.mp read with cached | ⟨pass, member, current⟩
    · exact isUnread_eq_false.mpr (.inl cached)
    · refine isUnread_eq_false.mpr (.inr ⟨pass, member, ?_⟩)
      have same :
          (track.openWith debounce now document).source pass.source = track.source pass.source :=
        source_addSource_of_lt (booked.passes pass member).1 ⟨document, false⟩
      rw [same]
      exact current
  · have newSource :
        (track.openWith debounce now document).source track.sources.length = ⟨document, false⟩ :=
      track.source_addSource_self ⟨document, false⟩
    rw [newSource]
    exact fresh

theorem exists_entry
    {timer : Timer} (overtaken : track.Overtaken timer) :
    ∃ entry, track.entry = some entry ∧ entry.timer = some timer :=
  Option.bind_eq_some_iff.mp overtaken.armed

/-- The end of a pass does not undo what was read. -/
theorem complete
    {pass : Pass} {timer : Timer}
    (overtaken : track.Overtaken timer) (member : pass ∈ track.passes) :
    (track.complete pass).Overtaken timer := by
  have booked := overtaken.booked
  refine ⟨booked.complete member, ?_, ?_, ?_⟩
  · rw [timer_complete]
    exact overtaken.armed
  · rw [isUnread_eq_false, source_complete, passes_complete]
    rcases complete_cases track pass with
      ⟨_, _, _, _, _, _, _, published⟩ | ⟨withheld, dropped⟩
    · rw [published]
      exact .inl rfl
    · have sameCached : (track.complete pass).cached = track.cached := by rw [dropped]
      rw [sameCached]
      rcases isUnread_eq_false.mp overtaken.read with cached | ⟨other, otherMember, current⟩
      · exact .inl cached
      · by_cases same : other = pass
        · -- The pass is kept from publishing by something newer, and that is cached.
          left
          obtain ⟨entry, tracked, _⟩ := overtaken.exists_entry
          obtain ⟨_, diagnostics, found⟩ := booked.passes pass member
          rw [same] at current
          rw [booked.noted, tracked, Option.bind_some, Option.isSome_iff_ne_none]
          intro unpublished
          have accepted : track.accepts pass = true :=
            accepts_eq_true.mpr ⟨entry, tracked, current, by simp [unpublished]⟩
          exact withheld diagnostics (outcomeOf_eq_published.mpr ⟨found, accepted⟩)
        · exact .inr ⟨other, booked.tidy.mem_filter_number member otherMember same, current⟩
  · rw [source_complete]
    exact overtaken.fresh

/-- When all passes have ended, something is shown, and the timer does not change it. -/
theorem shown
    {timer : Timer} {now : Nat}
    (overtaken : track.Overtaken timer) (still : track.passes = [])
    (due : timer.due ≤ now) (engine : Engine) :
    track.shown.isSome = true ∧
      ((track.fireDue engine now).finish track.started).shown = track.shown := by
  have cached : track.cached.isSome = true := by
    rcases isUnread_eq_false.mp overtaken.read with cached | ⟨pass, member, _⟩
    · exact cached
    · rw [still] at member
      cases member
  obtain ⟨version, holds⟩ := Option.isSome_iff_exists.mp cached
  obtain ⟨entry, tracked, armed⟩ := overtaken.exists_entry
  have published : entry.published = some version := by
    have noted := overtaken.booked.noted
    rw [holds, tracked] at noted
    exact noted.symm
  constructor
  · rw [overtaken.booked.shown]
    exact cached
  · rw [fireDue_of_due (armed?_eq_some.mpr ⟨tracked, armed⟩) due]
    exact (fire_finish still engine entry timer).2 version holds published
      (overtaken.fresh ▸ Nat.zero_le version)

end Overtaken

/-- A source that is added while a pass is in flight means nothing to the pass. -/
theorem complete_addSource
    {pass : Pass}
    (known : pass.source < track.sources.length) (added : Source) :
    (track.addSource added).complete pass = (track.complete pass).addSource added := by
  have same : (track.addSource added).source pass.source = track.source pass.source :=
    source_addSource_of_lt known added
  have outcome : (track.addSource added).outcomeOf pass = track.outcomeOf pass := by
    simp only [outcomeOf, accepts, same]
    rfl
  rw [complete, complete, outcome]
  cases track.outcomeOf pass <;> rfl

theorem finish_addSource
    (known : ∀ pass ∈ track.passes, pass.source < track.sources.length)
    (number : Nat) (added : Source) :
    (track.addSource added).finish number = (track.finish number).addSource added := by
  have sameFound :
      (track.addSource added).passes.find? (·.number = number) =
        track.passes.find? (·.number = number) := rfl
  rw [finish, finish, sameFound]
  cases found : track.passes.find? (·.number = number) with
  | none => rfl
  | some pass => exact complete_addSource (known pass (List.mem_of_find?_eq_some found)) added

theorem finishAll_addSource
    (added : Source) :
    ∀ (passes : List Pass) (track : Track),
      (∀ pass ∈ track.passes, pass.source < track.sources.length) →
        (track.addSource added).finishAll passes = (track.finishAll passes).addSource added
  | [], track, _ => rfl
  | first :: rest, track, known => by
      rw [finishAll, finishAll, List.foldl_cons, List.foldl_cons, finish_addSource known]
      refine finishAll_addSource added rest _ ?_
      rcases finish_cases first.number track with same | ⟨ended, _, _, finished⟩
      · rw [same]
        exact known
      · rw [finished, passes_complete, sources_complete]
        intro pass member
        exact known pass (List.mem_filter.mp member).1

/-- A buffer of which something was read is opened: what is shown when its passes have ended stays
shown. -/
theorem shown_remaining_openWith
    {document : Document} {now later : Nat}
    (booked : track.Booked) (read : track.isUnread = false) (fresh : document.version = 0)
    (engine : Engine) (debounce : Nat) (due : now + debounce ≤ later) :
    ((track.openWith debounce now document).finishAll track.passes).shown.isSome = true ∧
      (track.remaining.foldl (act engine debounce later)
        (track.openWith debounce now document)).shown =
          ((track.openWith debounce now document).finishAll track.passes).shown := by
  let timer : Timer :=
    ⟨now + debounce, (track.entry.getD {}).generation + 1, track.sources.length⟩
  let kept (between : Track) : Prop :=
    between.Overtaken timer ∧ between.started = track.started
  have ends :
      ∀ between pass, kept between → pass ∈ between.passes → kept (between.complete pass) := by
    rintro between pass ⟨overtaken, sameStarted⟩ member
    exact ⟨overtaken.complete member, (started_complete between pass).trans sameStarted⟩
  obtain ⟨⟨overtaken, sameStarted⟩, still⟩ :=
    finishAll_passes ends track.passes (track.openWith debounce now document) rfl
      (booked.openWith debounce now document).tidy
      ⟨.openWith booked read fresh debounce now, rfl⟩
  obtain ⟨something, unchanged⟩ := overtaken.shown still due engine
  rw [sameStarted] at unchanged
  rw [foldl_remaining]
  exact ⟨something, unchanged⟩

/-- A buffer of which something was read is opened, and all its passes end before its timer fires:
then what is shown does not depend on the new document. -/
theorem exists_shown_openWith
    {now later : Nat}
    (booked : track.Booked) (read : track.isUnread = false)
    (engine : Engine) (debounce : Nat) (due : now + debounce ≤ later) :
    ∃ stale,
      ∀ document : Document,
        document.version = 0 →
          (track.remaining.foldl (act engine debounce later)
            (track.openWith debounce now document)).shown = some stale := by
  let waiting : Track := track.schedule debounce now track.sources.length
  have independent (document : Document) :
      ((track.openWith debounce now document).finishAll track.passes).shown =
        (waiting.finishAll track.passes).shown := by
    have apart :
        (track.openWith debounce now document).finishAll track.passes =
          (waiting.finishAll track.passes).addSource ⟨document, false⟩ :=
      finishAll_addSource ⟨document, false⟩ track.passes waiting
        fun pass member => (booked.passes pass member).1
    rw [apart]
    rfl
  have first :
      ((track.openWith debounce now default).finishAll track.passes).shown.isSome = true :=
    (shown_remaining_openWith booked read rfl engine debounce due).1
  rw [independent] at first
  obtain ⟨stale, holds⟩ := Option.isSome_iff_exists.mp first
  refine ⟨stale, ?_⟩
  intro document fresh
  rw [(shown_remaining_openWith booked read fresh engine debounce due).2, independent]
  exact holds

end Track

end Heredoc
