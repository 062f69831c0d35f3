import Heredoc.Proofs.Document.Versions
import Heredoc.Proofs.Schedule.Tidy

/-!
# A buffer that one document serves

As long as all that happens to a buffer is about one source, whose document is changed by edits
only, versions tell contents apart: a pass that has read the version that the document has now has
found what an engine finds in the document now, and so has the cache if it holds that version.
Passes that read an earlier source may still be in flight, if that source has moved on since.
-/

namespace Heredoc

/-- What a snapshot of a source gives is what its document gives. -/
theorem Source.diagnose_of_ok
    {engine : Engine} {source : Source} {diagnostics : List Diagnostic}
    (found : engine.diagnose source.view = .ok diagnostics) :
    engine.diagnose source.document.view = .ok diagnostics := by
  unfold Source.view at found
  by_cases torn : source.torn = true
  · rw [if_pos torn] at found
    obtain ⟨missing, failed⟩ := source.document.lines_withCount_succ
    rw [Engine.diagnose, Engine.validate, scan, failed] at found
    cases found
  · rwa [if_neg torn] at found

namespace Track

/-! ## Sources -/

theorem source_modifySource_of_ne
    (track : Track) {number other : Nat} (change : Source → Source)
    (different : number ≠ other) :
    (track.modifySource number change).source other = track.source other := by
  simp only [source, modifySource, List.getD_eq_getElem?_getD, List.getElem?_modify,
    if_neg different]
  cases track.sources[other]? <;> rfl

theorem source_modifySource_self
    (track : Track) (number : Nat) (change : Source → Source) :
    (track.modifySource number change).source number = change (track.source number) ∨
      (track.modifySource number change).source number = track.source number := by
  simp only [source, modifySource, List.getD_eq_getElem?_getD, List.getElem?_modify]
  cases track.sources[number]? with
  | none => exact .inr rfl
  | some known => exact .inl rfl

theorem source_modifySource_of_lt
    {track : Track} {number : Nat}
    (known : number < track.sources.length) (change : Source → Source) :
    (track.modifySource number change).source number = change (track.source number) := by
  simp [source, modifySource, List.getD_eq_getElem?_getD, known]

theorem source_addSource_of_lt
    {track : Track} {number : Nat}
    (known : number < track.sources.length) (added : Source) :
    (track.addSource added).source number = track.source number := by
  simp only [source, addSource, List.getD_eq_getElem?_getD]
  rw [List.getElem?_append_left known]

theorem source_addSource_self (track : Track) (added : Source) :
    (track.addSource added).source track.sources.length = added := by
  simp only [source, addSource, List.getD_eq_getElem?_getD]
  rw [List.getElem?_concat_length]
  rfl

/-- If no snapshot is torn, none is after a source with whole snapshots was added. -/
theorem torn_addSource
    {track : Track} {added : Source}
    (whole : ∀ number, (track.source number).torn = false) (addedWhole : added.torn = false)
    (number : Nat) :
    ((track.addSource added).source number).torn = false := by
  rcases Nat.lt_trichotomy number track.sources.length with earlier | rfl | later
  · rw [source_addSource_of_lt earlier]
    exact whole number
  · rw [source_addSource_self]
    exact addedWhole
  · have beyond : (track.sources ++ [added]).length ≤ number := by
      rw [List.length_append, List.length_singleton]
      omega
    simp only [source, addSource, List.getD_eq_getElem?_getD]
    rw [List.getElem?_eq_none beyond]
    rfl

end Track

/-! ## The invariant -/

/-- The pass has read this document or an earlier state of it. -/
def Pass.Read (engine : Engine) (document : Document) (pass : Pass) : Prop :=
  pass.version ≤ document.version ∧
    (pass.version = document.version →
      ∀ diagnostics, pass.result = .ok diagnostics →
        engine.diagnose document.view = .ok diagnostics)

/-- The pass has read another source, and that source has moved on. -/
def Pass.Outdated (number : Nat) (track : Track) (pass : Pass) : Prop :=
  pass.source ≠ number ∧
    (track.source pass.source).document.version ≠ pass.version

/-- What is shown was found in this document, or in an earlier state of it that had this
version. -/
def Track.Checked
    (engine : Engine) (document : Document) (track : Track) (version : Nat) : Prop :=
  version ≤ document.version ∧
    (version = document.version →
      ∃ diagnostics,
        track.shown = some diagnostics ∧
          engine.diagnose document.view = .ok diagnostics)

theorem Pass.Read.precedes
    {engine : Engine} {document later : Document} {pass : Pass}
    (read : pass.Read engine document) (precedes : document.Precedes later) :
    pass.Read engine later := by
  refine ⟨Nat.le_trans read.1 precedes.1, ?_⟩
  intro sameVersion diagnostics found
  have unmoved : document.version = later.version :=
    Nat.le_antisymm precedes.1 (sameVersion ▸ read.1)
  rw [precedes.2 unmoved]
  exact read.2 (sameVersion.trans unmoved.symm) diagnostics found

theorem Track.Checked.precedes
    {engine : Engine} {document later : Document} {track : Track} {version : Nat}
    (checked : track.Checked engine document version) (precedes : document.Precedes later) :
    track.Checked engine later version := by
  refine ⟨Nat.le_trans checked.1 precedes.1, ?_⟩
  intro sameVersion
  have unmoved : document.version = later.version :=
    Nat.le_antisymm precedes.1 (sameVersion ▸ checked.1)
  rw [precedes.2 unmoved]
  exact checked.2 (sameVersion.trans unmoved.symm)

namespace Track

/-- One source serves the buffer. -/
structure Serves (engine : Engine) (number : Nat) (track : Track) : Prop where
  timer :
    ∀ entry timer,
      track.entry = some entry → entry.timer = some timer → timer.source = number
  passes :
    ∀ pass ∈ track.passes,
      (pass.source = number ∧ pass.Read engine (track.source number).document) ∨
        pass.Outdated number track
  published :
    ∀ entry version,
      track.entry = some entry → entry.published = some version →
        version ≤ (track.source number).document.version
  cached :
    ∀ version,
      track.cached = some version →
        track.Checked engine (track.source number).document version

end Track

/-- Whether all that the action is about is one source. -/
def Action.serves (number : Nat) : Action → Bool
  | .add _ => false
  | .edit other _ | .tear other _ | .notify other | .force other => other = number
  | .close | .fire | .finish _ => true

/-- Whether all that the move is about, if it is about a buffer, is one source. -/
def Move.serves (number : Nat) : Move → Bool
  | .on _ action => action.serves number
  | .wait _ | .shutdown => true

/-- What an action on one source can do to that source. -/
theorem Track.source_act_cases
    {number : Nat} {action : Action}
    (own : action.serves number = true)
    (engine : Engine) (debounce now : Nat) (track : Track) :
    (track.act engine debounce now action).source number = track.source number ∨
      (∃ edit : Edit,
        (track.act engine debounce now action).source number =
          (track.source number).edit edit) ∨
        ∃ torn : Bool,
          action = .tear number torn ∧
            (track.act engine debounce now action).source number =
              { track.source number with torn } := by
  have step := track.becomes_act engine debounce now action
  generalize track.act engine debounce now action = after at step ⊢
  cases step with
  | adds => cases own
  | edits other edit =>
      obtain rfl : other = number := of_decide_eq_true own
      rcases track.source_modifySource_self other (·.edit edit) with changed | same
      · exact .inr (.inl ⟨edit, changed⟩)
      · exact .inl same
  | tears other torn =>
      obtain rfl : other = number := of_decide_eq_true own
      rcases track.source_modifySource_self other ({ · with torn }) with changed | same
      · exact .inr (.inr ⟨torn, rfl, changed⟩)
      · exact .inl same
  | arms | closes | rests | skips | publishes | withholds => exact .inl rfl
  | forces | starts =>
      left
      rw [start_eq]
      rfl

namespace Track.Serves

variable {engine : Engine} {number : Nat} {track : Track}

/-- A change of the served document that is an edit or nothing. -/
theorem modifySource
    (serves : track.Serves engine number) (change : Source → Source)
    (edited :
      (track.source number).document.Precedes (change (track.source number)).document) :
    (track.modifySource number change).Serves engine number := by
  have later :
      (track.source number).document.Precedes
        ((track.modifySource number change).source number).document := by
    rcases track.source_modifySource_self number change with changed | same
    · rw [changed]
      exact edited
    · rw [same]
      exact .refl _
  refine ⟨serves.timer, ?_, ?_, ?_⟩
  · intro pass member
    rcases serves.passes pass member with ⟨served, read⟩ | ⟨different, moved⟩
    · exact .inl ⟨served, read.precedes later⟩
    · refine .inr ⟨different, ?_⟩
      rw [track.source_modifySource_of_ne change (Ne.symm different)]
      exact moved
  · intro entry version tracked published
    exact Nat.le_trans (serves.published entry version tracked published) later.1
  · intro version cached
    exact (serves.cached version cached).precedes later

/-- The entry that a buffer has or gets keeps to what is known. -/
theorem published_getD
    (serves : track.Serves engine number) (version : Nat)
    (published : (track.entry.getD {}).published = some version) :
    version ≤ (track.source number).document.version := by
  cases tracked : track.entry with
  | none =>
      rw [tracked] at published
      cases published
  | some entry =>
      rw [tracked] at published
      exact serves.published entry version tracked published

theorem timer_getD
    (serves : track.Serves engine number) (timer : Timer)
    (armed : (track.entry.getD {}).timer = some timer) :
    timer.source = number := by
  cases tracked : track.entry with
  | none =>
      rw [tracked] at armed
      cases armed
  | some entry =>
      rw [tracked] at armed
      exact serves.timer entry timer tracked armed

theorem schedule
    (serves : track.Serves engine number) (debounce now : Nat) :
    (track.schedule debounce now number).Serves engine number := by
  refine ⟨?_, serves.passes, ?_, serves.cached⟩
  · intro entry timer tracked armed
    rw [← Option.some.inj tracked] at armed
    rw [← Option.some.inj armed]
  · intro entry version tracked published
    rw [← Option.some.inj tracked] at published
    exact serves.published_getD version published

/-- A pass starts over the served source. -/
theorem start
    (serves : track.Serves engine number) (now : Nat) (forced : Bool) :
    (Track.start engine now forced number track).Serves engine number := by
  rw [start_eq]
  refine ⟨serves.timer, ?_, serves.published, serves.cached⟩
  intro pass member
  rcases List.mem_append.mp member with earlier | latest
  · exact serves.passes pass earlier
  · rw [List.mem_singleton.mp latest]
    exact .inl ⟨rfl, Nat.le_refl _, fun _ _ found => Source.diagnose_of_ok found⟩

theorem force
    (serves : track.Serves engine number) (now : Nat) :
    (track.force engine now number).Serves engine number := by
  apply start
  refine ⟨?_, serves.passes, ?_, ?_⟩
  · intro entry timer tracked armed
    rw [← Option.some.inj tracked] at armed
    exact serves.timer_getD timer armed
  · intro entry version tracked published
    rw [← Option.some.inj tracked] at published
    exact serves.published_getD version published
  · intro version cached
    cases cached

/-- A pass that publishes has read the served document as it is now. -/
theorem diagnose_of_published
    {pass : Pass} {diagnostics : List Diagnostic}
    (serves : track.Serves engine number)
    (member : pass ∈ track.passes)
    (current : (track.source pass.source).document.version = pass.version)
    (found : pass.result = .ok diagnostics) :
    pass.version = (track.source number).document.version ∧
      engine.diagnose (track.source number).document.view = .ok diagnostics := by
  rcases serves.passes pass member with ⟨served, read⟩ | ⟨_, moved⟩
  · rw [served] at current
    exact ⟨current.symm, read.2 current.symm diagnostics found⟩
  · exact absurd current moved

/-- A pass is taken out of those in flight. -/
theorem release (serves : track.Serves engine number) (pass : Pass) :
    (track.release pass).Serves engine number := by
  refine ⟨?_, ?_, ?_, serves.cached⟩
  · intro left timer leftTracked armed
    obtain ⟨entry, tracked, rfl⟩ := Option.map_eq_some_iff.mp leftTracked
    exact serves.timer entry timer tracked armed
  · intro other kept
    exact serves.passes other (List.mem_filter.mp kept).1
  · intro left version leftTracked noted
    obtain ⟨entry, tracked, rfl⟩ := Option.map_eq_some_iff.mp leftTracked
    exact serves.published entry version tracked noted

theorem close (serves : track.Serves engine number) :
    track.close.Serves engine number :=
  ⟨by simp [Track.close], serves.passes, by simp [Track.close], by simp [Track.close]⟩

theorem forget (serves : track.Serves engine number) :
    track.forget.Serves engine number :=
  ⟨by simp [Track.forget], serves.passes, by simp [Track.forget], serves.cached⟩

/-- Every action on the served source keeps it served. -/
theorem act
    {action : Action}
    (serves : track.Serves engine number) (own : action.serves number = true)
    (debounce now : Nat) :
    (track.act engine debounce now action).Serves engine number := by
  have step := track.becomes_act engine debounce now action
  generalize track.act engine debounce now action = after at step ⊢
  cases step with
  | adds => cases own
  | edits other edit =>
      obtain rfl : other = number := of_decide_eq_true own
      exact serves.modifySource _ (edit.precedes_apply _)
  | tears other torn =>
      obtain rfl : other = number := of_decide_eq_true own
      exact serves.modifySource _ (.refl _)
  | arms other =>
      obtain rfl : other = number := of_decide_eq_true own
      exact serves.schedule debounce now
  | forces other =>
      obtain rfl : other = number := of_decide_eq_true own
      exact serves.force now
  | closes => exact serves.close
  | rests => exact serves
  | @skips entry _ _ tracked =>
      refine ⟨?_, serves.passes, ?_, serves.cached⟩
      · intro left other found rearmed
        rw [← Option.some.inj found] at rearmed
        cases rearmed
      · intro left version found published
        rw [← Option.some.inj found] at published
        exact serves.published entry version tracked published
  | @starts entry timer tracked armed =>
      rw [serves.timer entry timer tracked armed]
      apply start
      refine ⟨?_, serves.passes, ?_, serves.cached⟩
      · intro entered other found rearmed
        rw [← Option.some.inj found] at rearmed
        cases rearmed
      · intro entered version found published
        rw [← Option.some.inj found] at published
        exact serves.published entry version tracked published
  | @publishes pass entry diagnostics member tracked found current =>
      obtain ⟨version, diagnosed⟩ := serves.diagnose_of_published member current found
      refine ⟨?_, (serves.release pass).passes, ?_, ?_⟩
      · intro left timer leftTracked armed
        rw [← Option.some.inj leftTracked] at armed
        exact serves.timer entry timer tracked armed
      · intro left other leftTracked noted
        rw [← Option.some.inj leftTracked] at noted
        rw [← Option.some.inj noted]
        exact Nat.le_of_eq version
      · intro other noted
        rw [← Option.some.inj noted]
        exact ⟨Nat.le_of_eq version, fun _ => ⟨diagnostics, rfl, diagnosed⟩⟩
  | @withholds pass =>
      have released := serves.release pass
      exact ⟨released.timer, released.passes, released.published, serves.cached⟩

/-- A buffer of which nothing is known is served by any source. -/
theorem of_quiet
    (untracked : track.entry = none) (still : track.passes = [])
    (unchecked : track.cached = none) (number : Nat) :
    track.Serves engine number :=
  ⟨by simp [untracked], by simp [still], by simp [untracked], by simp [unchecked]⟩

end Track.Serves

/-! ## Runs over one document for each buffer -/

/-- Nothing has happened to the buffer, and no snapshot of it is torn. -/
structure Track.Quiet (track : Track) : Prop where
  untracked : track.entry = none
  still : track.passes = []
  unchecked : track.cached = none
  unheard : track.reports = []
  whole : ∀ number, (track.source number).torn = false

theorem Track.Quiet.addSource
    {track : Track} (quiet : track.Quiet) (document : Document) :
    (track.addSource ⟨document, false⟩).Quiet := by
  refine ⟨quiet.untracked, quiet.still, quiet.unchecked, quiet.unheard, ?_⟩
  exact torn_addSource quiet.whole rfl

namespace Scheduler

/-- A scheduler to which the documents of its buffers are known. -/
def hosting (engine : Engine) (debounce : Nat) (documents : List Document) : Scheduler :=
  (Scheduler.start engine debounce).run
    (documents.map fun document => .on document.id (.add ⟨document, false⟩))

variable (engine : Engine) (debounce : Nat) (documents : List Document)

@[simp]
theorem engine_hosting : (hosting engine debounce documents).engine = engine :=
  engine_run _ _

theorem quiet_hosting (id : BufferId) :
    ((hosting engine debounce documents).track id).Quiet := by
  have start : ((Scheduler.start engine debounce).track id).Quiet :=
    ⟨rfl, rfl, rfl, rfl, fun _ => rfl⟩
  let isAdd (action : Action) : Prop := ∃ document, action = .add ⟨document, false⟩
  refine @track_run Track.Quiet isAdd _ id start ?_ ?_ _ ?_
  · rintro track now _ ⟨document, rfl⟩ quiet
    exact quiet.addSource document
  · intro track quiet
    exact ⟨rfl, quiet.still, quiet.unchecked, quiet.unheard, quiet.whole⟩
  · intro action member
    obtain ⟨document, _, same⟩ := List.mem_map.mp member
    injection same with _ sameAction
    exact ⟨document, sameAction.symm⟩

theorem tidy_hosting (id : BufferId) (moves : List Move) :
    (((hosting engine debounce documents).run moves).track id).Tidy := by
  have start : ((Scheduler.start engine debounce).track id).Tidy := Track.Tidy.empty id
  rw [hosting, ← run_append]
  exact tidy_run start _

/-- A buffer that is left to its first source is served by it in every run. -/
theorem serves_run
    (id : BufferId) {moves : List Move}
    (sole : ∀ move ∈ moves, move.serves 0 = true) :
    (((hosting engine debounce documents).run moves).track id).Serves engine 0 := by
  have quiet := quiet_hosting engine debounce documents id
  have start : ((hosting engine debounce documents).track id).Serves engine 0 :=
    .of_quiet quiet.untracked quiet.still quiet.unchecked 0
  refine track_run _ id start ?_ (fun _ held => held.forget) moves
    (fun action member => sole (.on id action) member)
  intro track now action own served
  rw [engine_hosting]
  exact served.act own _ now

end Scheduler

end Heredoc
