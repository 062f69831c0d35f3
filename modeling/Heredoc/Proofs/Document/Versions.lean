import Heredoc.Buffer
import Mathlib.Data.List.Pairwise

/-!
# Versions of a document

An edit raises the version of a document or changes nothing at all. A live document is edited while
snapshots are taken of it, in any order. Main statement: whatever is done with it, snapshots of one
version show the same lines, and no later edit reaches a snapshot (`versions_identify_content`).
-/

namespace Heredoc

/-! ## Edits -/

/-- The document is later: its version did not go back, and it is the same if its version is. -/
def Document.Precedes (document later : Document) : Prop :=
  document.version ≤ later.version ∧
    (document.version = later.version → later = document)

theorem Document.Precedes.refl (document : Document) : document.Precedes document :=
  ⟨Nat.le_refl _, fun _ => rfl⟩

theorem Document.Precedes.of_version_lt
    {document later : Document}
    (less : document.version < later.version) :
    document.Precedes later :=
  ⟨Nat.le_of_lt less, fun same => absurd same (Nat.ne_of_lt less)⟩

/-- An edit raises the version or changes nothing. -/
theorem Edit.precedes_apply (edit : Edit) (document : Document) :
    document.Precedes (edit.apply document) := by
  cases edit with
  | setText text => exact .of_version_lt (Nat.lt_succ_self _)
  | replaceLine index text =>
      by_cases inside : index < document.lines.length
      · have raised :
            (document.replaceLine index text).version = document.version + 1 := by
          rw [Document.replaceLine, if_pos inside]
        exact .of_version_lt (raised ▸ Nat.lt_succ_self _)
      · have unchanged : document.replaceLine index text = document := by
          rw [Document.replaceLine, if_neg inside]
        rw [Edit.apply, unchanged]
        exact .refl document
  | insertLine index text => exact .of_version_lt (Nat.lt_succ_self _)

theorem Edit.version_apply_le (edit : Edit) (document : Document) :
    (edit.apply document).version ≤ document.version + 1 := by
  cases edit with
  | setText text => exact Nat.le_refl _
  | replaceLine index text =>
      rw [Edit.apply, Document.replaceLine]
      split
      · exact Nat.le_refl _
      · exact Nat.le_succ _
  | insertLine index text => exact Nat.le_refl _

namespace Document

theorem getElem?_insertLine (document : Document) (index : Nat) (text : String) :
    (document.insertLine index text).lines[min index document.lines.length]? = some text := by
  have place : min index document.lines.length = (document.lines.take index).length :=
    List.length_take.symm
  rw [insertLine, place, List.getElem?_append_right (Nat.le_refl _), Nat.sub_self]
  rfl

theorem eraseIdx_insertLine (document : Document) (index : Nat) (text : String) :
    (document.insertLine index text).lines.eraseIdx (min index document.lines.length) =
      document.lines := by
  have place : min index document.lines.length = (document.lines.take index).length :=
    List.length_take.symm
  rw [insertLine, place, List.eraseIdx_append_of_length_le (Nat.le_refl _), Nat.sub_self,
    List.eraseIdx_cons_zero, List.take_append_drop]

theorem length_replaceLine (document : Document) (index : Nat) (text : String) :
    (document.replaceLine index text).lines.length = document.lines.length := by
  rw [replaceLine]
  split
  · exact List.length_set
  · rfl

theorem getElem?_replaceLine (document : Document) (index : Nat) (text : String) (other : Nat) :
    (document.replaceLine index text).lines[other]? =
      if other = index ∧ index < document.lines.length then some text
      else document.lines[other]? := by
  rw [replaceLine]
  by_cases inside : index < document.lines.length
  · rw [if_pos inside]
    by_cases same : other = index
    · rw [if_pos ⟨same, inside⟩, same]
      exact List.getElem?_set_self inside
    · rw [if_neg fun both => same both.1]
      exact List.getElem?_set_ne (Ne.symm same)
  · rw [if_neg inside, if_neg fun both => inside both.2]

end Document

/-! ## Snapshots -/

/-- Views of one version show the same lines. -/
def View.Agrees (view other : View) : Prop :=
  view.version = other.version → view.lineCount = other.lineCount ∧ view.line = other.line

theorem View.Agrees.refl (view : View) : view.Agrees view :=
  fun _ => ⟨rfl, rfl⟩

instance : Std.Symm View.Agrees where
  symm _ _ agrees same := ⟨(agrees same.symm).1.symm, (agrees same.symm).2.symm⟩

/-- The view is later: its version did not go back, and it agrees. -/
def View.Precedes (view later : View) : Prop :=
  view.version ≤ later.version ∧ view.Agrees later

theorem View.Precedes.refl (view : View) : view.Precedes view :=
  ⟨Nat.le_refl _, .refl view⟩

theorem View.Precedes.trans
    {view middle later : View}
    (first : view.Precedes middle) (second : middle.Precedes later) :
    view.Precedes later := by
  refine ⟨Nat.le_trans first.1 second.1, ?_⟩
  intro same
  have firstSame : view.version = middle.version :=
    Nat.le_antisymm first.1 (same ▸ second.1)
  have secondSame : middle.version = later.version := firstSame.symm.trans same
  exact
    ⟨(first.2 firstSame).1.trans (second.2 secondSame).1,
      (first.2 firstSame).2.trans (second.2 secondSame).2⟩

theorem Document.Precedes.view
    {document later : Document} (precedes : document.Precedes later) :
    document.view.Precedes later.view := by
  refine ⟨precedes.1, ?_⟩
  intro same
  rw [precedes.2 same]
  exact ⟨rfl, rfl⟩

/-- A document that is edited, and the snapshots that were taken of it, the oldest first. -/
structure LiveDocument where
  document : Document
  snapshots : List View

namespace LiveDocument

/-- What can be done with a live document. -/
inductive Move where
  | edit (edit : Edit)
  | snapshot
deriving DecidableEq

/-- Whether the move edits the document. -/
def Move.isEdit : Move → Bool
  | .edit _ => true
  | .snapshot => false

/-- A document of which no snapshot was taken. -/
def start (document : Document) : LiveDocument := ⟨document, []⟩

/-- Carries out a move. -/
def apply (live : LiveDocument) : Move → LiveDocument
  | .edit edit => { live with document := edit.apply live.document }
  | .snapshot => { live with snapshots := live.snapshots ++ [live.document.view] }

/-- Carries out moves, one after another. -/
def run (live : LiveDocument) (moves : List Move) : LiveDocument :=
  moves.foldl apply live

@[simp]
theorem run_cons (live : LiveDocument) (move : Move) (moves : List Move) :
    live.run (move :: moves) = (live.apply move).run moves := rfl

/-- The snapshots, and the one that could be taken now. -/
def history (live : LiveDocument) : List View :=
  live.snapshots ++ [live.document.view]

theorem pairwise_history_apply
    {live : LiveDocument} (ordered : live.history.Pairwise View.Precedes) (move : Move) :
    (live.apply move).history.Pairwise View.Precedes := by
  obtain ⟨taken, -, current⟩ := List.pairwise_append.mp ordered
  -- The view that could be taken now is the last of the history: an edit puts a later one in its
  -- place, and a snapshot repeats it.
  have beforeNow : ∀ view ∈ live.snapshots, view.Precedes live.document.view :=
    fun view member => current view member _ (List.mem_singleton_self _)
  cases move with
  | edit edit =>
      refine List.pairwise_append.mpr ⟨taken, List.pairwise_singleton _ _, ?_⟩
      intro view member later isLater
      rw [List.mem_singleton.mp isLater]
      exact (beforeNow view member).trans (edit.precedes_apply live.document).view
  | snapshot =>
      refine List.pairwise_append.mpr ⟨ordered, List.pairwise_singleton _ _, ?_⟩
      intro view member later isLater
      rw [List.mem_singleton.mp isLater]
      rcases List.mem_append.mp member with earlier | now
      · exact beforeNow view earlier
      · rw [List.mem_singleton.mp now]
        exact .refl _

theorem pairwise_history_run
    {live : LiveDocument} (ordered : live.history.Pairwise View.Precedes) (moves : List Move) :
    (live.run moves).history.Pairwise View.Precedes := by
  induction moves generalizing live with
  | nil => exact ordered
  | cons move moves inductionHypothesis =>
      exact inductionHypothesis (pairwise_history_apply ordered move)

theorem snapshots_prefix_run (live : LiveDocument) (moves : List Move) :
    live.snapshots <+: (live.run moves).snapshots := by
  induction moves generalizing live with
  | nil => exact List.prefix_rfl
  | cons move moves inductionHypothesis =>
      have rest := inductionHypothesis (live.apply move)
      cases move with
      | edit edit => exact rest
      | snapshot => exact (List.prefix_append _ _).trans rest

theorem version_run_le (live : LiveDocument) (moves : List Move) :
    (live.run moves).document.version ≤ live.document.version + moves.countP Move.isEdit := by
  induction moves generalizing live with
  | nil => exact Nat.le_refl _
  | cons move moves inductionHypothesis =>
      have rest := inductionHypothesis (live.apply move)
      rw [run_cons]
      cases move with
      | edit edit =>
          have raised : (live.apply (.edit edit)).document.version ≤ live.document.version + 1 :=
            edit.version_apply_le live.document
          rw [List.countP_cons_of_pos rfl]
          omega
      | snapshot =>
          rw [List.countP_cons_of_neg Bool.false_ne_true]
          exact rest

/-- Whatever was done with a document, the versions of its snapshots never went back, and snapshots
of one version show the same lines. An edit that changes the lines raises the version, and no move
reaches a snapshot that was taken. An insertion adds one line at its place or at the end, and a
replacement changes at most its own line. No version is further from the first than there were
edits, so that it fits in as many bits as that sum. -/
theorem versions_identify_content (document : Document) (moves : List Move) :
    let live := (start document).run moves
    live.snapshots.Pairwise (fun earlier later => earlier.version ≤ later.version) ∧
      (∀ first ∈ live.snapshots, ∀ second ∈ live.snapshots,
        first.version = second.version →
          first.lineCount = second.lineCount ∧ first.line = second.line) ∧
      (∀ edit : Edit,
        (edit.apply live.document).lines ≠ live.document.lines →
          live.document.version < (edit.apply live.document).version) ∧
      (∀ later : List Move, live.snapshots <+: (live.run later).snapshots) ∧
      (∀ later : List Move,
        ((live.apply .snapshot).run later).snapshots[live.snapshots.length]? =
          some live.document.view) ∧
      (∀ (index : Nat) (text : String),
        let inserted := (live.document.insertLine index text).lines
        let place := min index live.document.lines.length
        inserted[place]? = some text ∧ inserted.eraseIdx place = live.document.lines) ∧
      (∀ (index : Nat) (text : String),
        let replaced := (live.document.replaceLine index text).lines
        replaced.length = live.document.lines.length ∧
          (index < live.document.lines.length → replaced[index]? = some text) ∧
          ∀ other, other ≠ index → replaced[other]? = live.document.lines[other]?) ∧
      live.document.version ≤ document.version + moves.countP Move.isEdit := by
  intro live
  have ordered : live.history.Pairwise View.Precedes :=
    pairwise_history_run (List.pairwise_singleton _ _) moves
  have taken : live.snapshots.Pairwise View.Precedes := (List.pairwise_append.mp ordered).1
  refine ⟨taken.imp fun precedes => precedes.1, ?_, ?_, live.snapshots_prefix_run, ?_, ?_, ?_, ?_⟩
  · intro first firstMember second secondMember
    have agreeing : live.snapshots.Pairwise View.Agrees := taken.imp fun precedes => precedes.2
    exact agreeing.forall_of_forall (fun view _ => .refl view) firstMember secondMember
  · intro edit changed
    have precedes := edit.precedes_apply live.document
    refine Nat.lt_of_le_of_ne precedes.1 fun same => changed ?_
    rw [precedes.2 same]
  · intro later
    obtain ⟨more, whole⟩ := (live.apply .snapshot).snapshots_prefix_run later
    have shown : (live.apply .snapshot).snapshots = live.snapshots ++ [live.document.view] := rfl
    rw [← whole, shown, List.append_assoc, List.getElem?_append_right (Nat.le_refl _),
      Nat.sub_self]
    rfl
  · intro index text
    exact ⟨live.document.getElem?_insertLine index text,
      live.document.eraseIdx_insertLine index text⟩
  · intro index text
    refine ⟨live.document.length_replaceLine index text, ?_, ?_⟩
    · intro inside
      rw [live.document.getElem?_replaceLine, if_pos ⟨rfl, inside⟩]
    · intro other different
      rw [live.document.getElem?_replaceLine, if_neg fun both => different both.1]
  · exact (start document).version_run_le moves

/-- A replacement past the end lies between the first two snapshots, an insertion past the end
between the last two. -/
theorem versions_identify_content_pastEnd :
    let live :=
      (start ⟨"a.sh", 5, ["one"]⟩).run
        [.snapshot, .edit (.replaceLine 3 "two"), .snapshot, .edit (.insertLine 9 "three"),
          .snapshot]
    (∃ first ∈ live.snapshots, ∃ second ∈ live.snapshots,
      first.version = 5 ∧ second.version = 5 ∧ first.line = second.line) ∧
      live.document.lines = ["one", "three"] ∧
      live.document.version < (live.document.replaceLine 0 "two").version := by
  intro live
  obtain ⟨_, agree, raises, _⟩ :=
    versions_identify_content ⟨"a.sh", 5, ["one"]⟩
      [.snapshot, .edit (.replaceLine 3 "two"), .snapshot, .edit (.insertLine 9 "three"),
        .snapshot]
  have first : live.snapshots[0] ∈ live.snapshots := List.getElem_mem _
  have second : live.snapshots[1] ∈ live.snapshots := List.getElem_mem _
  refine ⟨⟨_, first, _, second, rfl, rfl, (agree _ first _ second rfl).2⟩, rfl, ?_⟩
  exact raises (.replaceLine 0 "two") (by decide)

end LiveDocument

end Heredoc
