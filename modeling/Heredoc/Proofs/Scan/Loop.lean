import Heredoc.Scan

/-!
# A scan line by line

A scan can be carried out line by line, in two states: it looks for a start marker, then for the
terminator of its tag. If the buffer ends first, the marker opens nothing, and the scan goes back
to the line after it. Main statements: however often it goes back, it comes to an end, and it gives
what `scan` gives, the first missing line included (`Scan.loop_eq_scan`).
-/

namespace Heredoc

namespace Scan

/-- Where a scan is. -/
inductive State where
  /-- A start marker is looked for, next in this line. -/
  | seeking (index : Nat)
  /-- A marker of this tag was found, and after it so many lines that do not end its body. -/
  | within (tag : String) (marker length : Nat)
deriving DecidableEq, Repr

namespace State

/-- The line to read next. -/
def index : State → Nat
  | .seeking index => index
  | .within _ marker length => marker + 1 + length

/-- Reads a line: where the scan is after it, and the region that the line ends. -/
def read (tags : List String) (line : String) : State → State × Option Region
  | .seeking index =>
      match Marker.start? tags line with
      | some tag => (.within tag index 0, none)
      | none => (.seeking (index + 1), none)
  | .within tag marker length =>
      if Marker.isTerminator line tag then
        (.seeking (marker + length + 2), some ⟨tag, marker + 1, marker + 1 + length⟩)
      else (.within tag marker (length + 1), none)

/-- How many lines can still be tried as a marker; the marker that is being tried counts half. -/
def tries (count : Nat) : State → Nat
  | .seeking index => 2 * (count - index)
  | .within _ marker _ => 2 * (count - (marker + 1)) + 1

/-- What a scan of so many lines still has to do at most: all lines for each try. -/
def work (count : Nat) (state : State) : Nat :=
  state.tries count * (count + 1) + (count - state.index)

theorem work_lt_of_tries_lt
    {count : Nat} {state next : State}
    (fewer : next.tries count < state.tries count) :
    next.work count < state.work count := by
  have all : count - next.index < count + 1 := by omega
  have once : (next.tries count + 1) * (count + 1) ≤ state.tries count * (count + 1) :=
    Nat.mul_le_mul_right _ fewer
  rw [Nat.succ_mul] at once
  unfold work
  omega

/-- A line that is read takes a try away, or it brings the current try on by a line. -/
theorem work_read_lt
    {count : Nat} {state : State}
    (inside : state.index < count) (tags : List String) (line : String) :
    (state.read tags line).1.work count < state.work count := by
  cases state with
  | seeking index =>
      have below : index < count := inside
      apply work_lt_of_tries_lt
      cases opened : Marker.start? tags line with
      | some tag =>
          simp only [read, opened, tries]
          omega
      | none =>
          simp only [read, opened, tries]
          omega
  | within tag marker length =>
      have below : marker + 1 + length < count := inside
      by_cases ended : Marker.isTerminator line tag = true
      · -- The lines of the body are never tried as markers.
        apply work_lt_of_tries_lt
        simp only [read, if_pos ended, tries]
        omega
      · simp only [read, if_neg ended, work, tries, State.index]
        omega

theorem work_seeking_lt (count : Nat) (tag : String) (marker length : Nat) :
    (seeking (marker + 1)).work count < (within tag marker length).work count :=
  work_lt_of_tries_lt (Nat.lt_succ_self _)

end State

/-- Goes on with a scan to its end; gives the regions found before and those found on the way. -/
def loop (tags : List String) (view : View) (found : List Region) (state : State) :
    Except MissingLine (List Region) :=
  if inside : state.index < view.lineCount then
    match view.line state.index with
    | none => .error ⟨view.id, state.index, view.lineCount⟩
    | some line =>
        loop tags view (found ++ (state.read tags line).2.toList) (state.read tags line).1
  else
    match state with
    | .seeking _ => .ok found
    | .within _ marker _ => loop tags view found (.seeking (marker + 1))
termination_by state.work view.lineCount
decreasing_by
  · exact State.work_read_lt inside tags line
  · exact State.work_seeking_lt ..

/-! ## Reading all lines -/

theorem readLines_eq_ok
    {line : Nat → Option String} :
    ∀ {count index : Nat} {lines : List String},
      readLines line index count = .ok lines →
        lines.length = count ∧ ∀ offset < count, line (index + offset) = lines[offset]?
  | 0, index, lines, read => by
      cases read
      simp
  | count + 1, index, lines, read => by
      rw [readLines] at read
      cases first : line index with
      | none =>
          rw [first] at read
          cases read
      | some text =>
          cases more : readLines line (index + 1) count with
          | error missing =>
              rw [first, more] at read
              cases read
          | ok rest =>
              rw [first, more] at read
              cases read
              obtain ⟨total, shown⟩ := readLines_eq_ok more
              refine ⟨by rw [List.length_cons, total], ?_⟩
              intro offset inside
              cases offset with
              | zero => exact first
              | succ offset =>
                  have later := shown offset (by omega)
                  rw [List.getElem?_cons_succ, ← later]
                  congr 1
                  omega

/-- All lines of a view were read. -/
theorem line_eq_of_readLines
    {view : View} {lines : List String}
    (read : readLines view.line 0 view.lineCount = .ok lines) :
    view.lineCount = lines.length ∧
      ∀ index < lines.length, view.line index = lines[index]? := by
  obtain ⟨total, shown⟩ := readLines_eq_ok read
  refine ⟨total.symm, ?_⟩
  intro index inside
  have there := shown index (total ▸ inside)
  rwa [Nat.zero_add] at there

theorem readLines_eq_error
    {line : Nat → Option String} :
    ∀ {count index missing : Nat},
      readLines line index count = .error missing →
        line missing = none ∧ missing < index + count ∧
          ∀ earlier, index ≤ earlier → earlier < missing → (line earlier).isSome = true
  | 0, index, missing, read => by cases read
  | count + 1, index, missing, read => by
      rw [readLines] at read
      cases first : line index with
      | none =>
          rw [first] at read
          cases read
          exact ⟨first, by omega, fun earlier reached before => by omega⟩
      | some text =>
          cases more : readLines line (index + 1) count with
          | ok rest =>
              rw [first, more] at read
              cases read
          | error later =>
              rw [first, more] at read
              cases read
              obtain ⟨absent, inside, shown⟩ := readLines_eq_error more
              refine ⟨absent, by omega, ?_⟩
              intro earlier reached before
              rcases Nat.eq_or_lt_of_le reached with rfl | after
              · rw [first]
                rfl
              · exact shown earlier after before

/-! ## What a scan still finds -/

namespace State

/-- What is found in these lines from here on. -/
def rest (tags lines : List String) : State → List Region
  | .seeking index => regionsFrom tags index (lines.drop index)
  | .within tag marker length =>
      match (lines.drop (marker + 1 + length)).findIdx? (Marker.isTerminator · tag) with
      | some more =>
          ⟨tag, marker + 1, marker + 1 + length + more⟩ ::
            regionsFrom tags (marker + 2 + length + more)
              (lines.drop (marker + 2 + length + more))
      | none => regionsFrom tags (marker + 1) (lines.drop (marker + 1))

theorem index_read (tags : List String) (line : String) (state : State) :
    (state.read tags line).1.index = state.index + 1 := by
  cases state with
  | seeking index =>
      cases opened : Marker.start? tags line with
      | some tag => simp only [read, opened, State.index, Nat.add_zero]
      | none => simp only [read, opened, State.index]
  | within tag marker length =>
      by_cases ended : Marker.isTerminator line tag = true
      · simp only [read, if_pos ended, State.index]
        omega
      · simp only [read, if_neg ended, State.index]
        omega

/-- Reading a line takes nothing away from what is found. -/
theorem rest_read
    {tags lines : List String} {state : State}
    (inside : state.index < lines.length) :
    (state.read tags lines[state.index]).2.toList ++
        (state.read tags lines[state.index]).1.rest tags lines =
      state.rest tags lines := by
  cases state with
  | seeking index =>
      have below : index < lines.length := inside
      have cut : lines.drop index = lines[index] :: lines.drop (index + 1) :=
        List.drop_eq_getElem_cons below
      simp only [rest, cut, State.index]
      rw [regionsFrom]
      cases opened : Marker.start? tags lines[index] with
      | none => simp only [read, opened, Option.toList_none, List.nil_append]
      | some tag =>
          simp only [read, opened, Option.toList_none, List.nil_append, Nat.add_zero]
          cases ended : (lines.drop (index + 1)).findIdx? (Marker.isTerminator · tag) with
          | none => rfl
          | some length =>
              simp only [List.drop_drop]
              rw [show index + 1 + (length + 1) = index + 2 + length by omega]
  | within tag marker length =>
      have below : marker + 1 + length < lines.length := inside
      have cut :
          lines.drop (marker + 1 + length) =
            lines[marker + 1 + length] :: lines.drop (marker + 1 + (length + 1)) :=
        List.drop_eq_getElem_cons below
      simp only [rest, cut, State.index, List.findIdx?_cons]
      by_cases ended : Marker.isTerminator lines[marker + 1 + length] tag = true
      · simp only [read, if_pos ended, Option.toList_some, List.singleton_append, Nat.add_zero]
        rw [show marker + length + 2 = marker + 2 + length by omega]
      · simp only [read, if_neg ended, Option.toList_none, List.nil_append]
        cases later :
            (lines.drop (marker + 1 + (length + 1))).findIdx? (Marker.isTerminator · tag) with
        | none => rfl
        | some more =>
            simp only [Option.map_some]
            rw [show marker + 1 + length + (more + 1) = marker + 1 + (length + 1) + more by omega,
              show marker + 2 + length + (more + 1) = marker + 2 + (length + 1) + more by omega]

theorem rest_seeking_of_le
    {lines : List String} {index : Nat}
    (atEnd : lines.length ≤ index) (tags : List String) :
    (seeking index).rest tags lines = [] := by
  rw [rest, List.drop_eq_nil_of_le atEnd, regionsFrom]

theorem rest_within_of_le
    {lines : List String} {marker length : Nat}
    (atEnd : lines.length ≤ marker + 1 + length) (tags : List String) (tag : String) :
    (within tag marker length).rest tags lines = (seeking (marker + 1)).rest tags lines := by
  simp only [rest, List.drop_eq_nil_of_le atEnd, List.findIdx?_nil]

end State

/-! ## Whole scans -/

variable {tags : List String} {view : View}

theorem loop_eq_ok
    {lines : List String}
    (total : view.lineCount = lines.length)
    (shown : ∀ index < lines.length, view.line index = lines[index]?)
    (found : List Region) (state : State) :
    loop tags view found state = .ok (found ++ state.rest tags lines) := by
  -- What was found and what is still to be found make up the same list at every line.
  fun_induction loop tags view found state with
  | case1 found state inside absent =>
      rw [total] at inside
      rw [shown state.index inside, List.getElem?_eq_getElem inside] at absent
      cases absent
  | case2 found state inside line present inductionHypothesis =>
      rw [total] at inside
      rw [shown state.index inside, List.getElem?_eq_getElem inside] at present
      obtain rfl := Option.some.inj present
      rw [inductionHypothesis, List.append_assoc, State.rest_read inside]
  | case3 found index atEnd =>
      have last : lines.length ≤ index := Nat.le_of_not_lt (total ▸ atEnd)
      rw [State.rest_seeking_of_le last, List.append_nil]
  | case4 found tag marker length atEnd inductionHypothesis =>
      have last : lines.length ≤ marker + 1 + length := Nat.le_of_not_lt (total ▸ atEnd)
      rw [inductionHypothesis, State.rest_within_of_le last]

/-- A scan that has not passed the first missing line stops there: it goes back only at the end of
the buffer, which it does not reach. -/
theorem loop_eq_error
    {missing : Nat}
    (absent : view.line missing = none) (below : missing < view.lineCount)
    (shown : ∀ index < missing, (view.line index).isSome = true)
    (found : List Region) (state : State) (reached : state.index ≤ missing) :
    loop tags view found state = .error ⟨view.id, missing, view.lineCount⟩ := by
  fun_induction loop tags view found state with
  | case1 found state inside absentHere =>
      rcases Nat.eq_or_lt_of_le reached with rfl | before
      · rfl
      · have present := shown state.index before
        rw [absentHere] at present
        cases present
  | case2 found state inside line present inductionHypothesis =>
      have before : state.index < missing := by
        refine Nat.lt_of_le_of_ne reached ?_
        intro same
        rw [same, absent] at present
        cases present
      apply inductionHypothesis
      rw [State.index_read]
      exact before
  | case3 found index atEnd => exact absurd (Nat.lt_of_le_of_lt reached below) atEnd
  | case4 found tag marker length atEnd inductionHypothesis =>
      exact absurd (Nat.lt_of_le_of_lt reached below) atEnd

/-- A scan line by line gives what a scan gives. -/
theorem loop_eq_scan (table : TagTable) (view : View) :
    loop table.tags view [] (.seeking 0) = scan table view := by
  unfold scan View.lines
  cases read : readLines view.line 0 view.lineCount with
  | ok lines =>
      obtain ⟨total, shown⟩ := line_eq_of_readLines read
      rw [loop_eq_ok total shown]
      rfl
  | error missing =>
      obtain ⟨absent, below, shown⟩ := readLines_eq_error read
      rw [Nat.zero_add] at below
      rw [loop_eq_error absent below (fun index => shown index (Nat.zero_le _)) []
        (.seeking 0) (Nat.zero_le missing)]
      rfl

end Scan

end Heredoc
