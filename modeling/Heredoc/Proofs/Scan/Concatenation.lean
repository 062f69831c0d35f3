import Heredoc.Proofs.Scan.Bodies

/-!
# Scanning a script that goes on

A start marker that is never ended opens nothing, but more lines may end it, and then they swallow
what was found after it. Up to the first such marker a scan is final: appended lines change nothing
before it (`Scan.regionsFrom_append`). Where the first line has another number, all regions move
with it (`Scan.regionsFrom_add`).
-/

namespace Heredoc

/-- The region so many lines further down. -/
def Region.offsetLines (region : Region) (lines : Nat) : Region :=
  ⟨region.tag, region.bodyStart + lines, region.bodyEnd + lines⟩

/-- The region ends in front of a line. -/
def Region.endsBefore (line : Nat) (region : Region) : Bool :=
  region.terminatorLine < line

namespace Scan

variable {tags : List String} {start : Nat} {line tag : String} {rest : List String}

/-! ## One line -/

theorem regionsFrom_cons_of_plain (plain : Marker.start? tags line = none) :
    regionsFrom tags start (line :: rest) = regionsFrom tags (start + 1) rest := by
  rw [regionsFrom, plain]

theorem regionsFrom_cons_of_unended
    (opened : Marker.start? tags line = some tag)
    (unended : rest.findIdx? (Marker.isTerminator · tag) = none) :
    regionsFrom tags start (line :: rest) = regionsFrom tags (start + 1) rest := by
  rw [regionsFrom, opened]
  simp only [unended]

theorem regionsFrom_cons_of_ended
    {length : Nat}
    (opened : Marker.start? tags line = some tag)
    (ended : rest.findIdx? (Marker.isTerminator · tag) = some length) :
    regionsFrom tags start (line :: rest) =
      ⟨tag, start + 1, start + 1 + length⟩ ::
        regionsFrom tags (start + 2 + length) (rest.drop (length + 1)) := by
  rw [regionsFrom, opened]
  simp only [ended]

theorem lt_length_of_findIdx?
    {ends : String → Bool} {length : Nat} (ended : rest.findIdx? ends = some length) :
    length < rest.length :=
  (List.findIdx?_eq_some_iff_getElem.mp ended).1

theorem bounds_of_mem_regionsFrom
    {lines : List String} {region : Region} (member : region ∈ regionsFrom tags start lines) :
    start < region.bodyStart ∧ region.bodyStart ≤ region.bodyEnd ∧
      region.bodyEnd < start + lines.length := by
  induction start, lines using regionsFrom.induct tags with
  | case1 start =>
      rw [regionsFrom] at member
      cases member
  | case2 start line rest plain inductionHypothesis =>
      rw [regionsFrom_cons_of_plain plain] at member
      have bounds := inductionHypothesis member
      rw [List.length_cons]
      omega
  | case3 start line rest tag opened unended inductionHypothesis =>
      rw [regionsFrom_cons_of_unended opened unended] at member
      have bounds := inductionHypothesis member
      rw [List.length_cons]
      omega
  | case4 start line rest tag opened length ended inductionHypothesis =>
      have inRest := lt_length_of_findIdx? ended
      rw [regionsFrom_cons_of_ended opened ended] at member
      rw [List.length_cons]
      rcases List.mem_cons.mp member with rfl | later
      · dsimp only
        omega
      · have bounds := inductionHypothesis later
        rw [List.length_drop] at bounds
        omega

/-! ## Markers outside all regions -/

/-- The line is a start marker outside all regions of these lines, of which the first has number
`start`. -/
def Unclosed (tags : List String) (start : Nat) (lines : List String) (index : Nat) : Prop :=
  (∃ offset line tag,
    index = start + offset ∧ lines[offset]? = some line ∧ Marker.start? tags line = some tag) ∧
    ∀ region ∈ regionsFrom tags start lines, ¬ region.Spans index

/-- A marker that is outside all regions after some lines is outside all regions. -/
theorem Unclosed.of_drop
    {lines : List String} {index : Nat} (skipped : Nat)
    (unclosed : Unclosed tags (start + skipped) (lines.drop skipped) index)
    (earlier :
      ∀ region ∈ regionsFrom tags start lines,
        region ∈ regionsFrom tags (start + skipped) (lines.drop skipped) ∨
          region.terminatorLine < start + skipped) :
    Unclosed tags start lines index := by
  obtain ⟨⟨offset, line, tag, here, shown, opened⟩, outside⟩ := unclosed
  rw [List.getElem?_drop] at shown
  refine ⟨⟨skipped + offset, line, tag, by omega, shown, opened⟩, ?_⟩
  intro region member spans
  rcases earlier region member with later | ended
  · exact outside region later spans
  · have reached := spans.2
    omega

theorem Unclosed.of_plain
    {index : Nat} (plain : Marker.start? tags line = none)
    (unclosed : Unclosed tags (start + 1) rest index) :
    Unclosed tags start (line :: rest) index := by
  refine .of_drop 1 unclosed fun region member => .inl ?_
  rwa [regionsFrom_cons_of_plain plain] at member

theorem Unclosed.of_ended
    {length index : Nat}
    (opened : Marker.start? tags line = some tag)
    (ended : rest.findIdx? (Marker.isTerminator · tag) = some length)
    (unclosed : Unclosed tags (start + 2 + length) (rest.drop (length + 1)) index) :
    Unclosed tags start (line :: rest) index := by
  have number : start + (length + 2) = start + 2 + length := by omega
  refine .of_drop (length + 2) ?_ fun region member => ?_
  · rwa [number, List.drop_succ_cons]
  · rw [regionsFrom_cons_of_ended opened ended] at member
    rcases List.mem_cons.mp member with rfl | later
    · right
      simp only [Region.terminatorLine]
      omega
    · left
      rwa [number, List.drop_succ_cons]

theorem unclosed_of_unended
    (opened : Marker.start? tags line = some tag)
    (unended : rest.findIdx? (Marker.isTerminator · tag) = none) :
    Unclosed tags start (line :: rest) start := by
  refine ⟨⟨0, line, tag, rfl, rfl, opened⟩, ?_⟩
  intro region member spans
  rw [regionsFrom_cons_of_unended opened unended] at member
  have bounds := bounds_of_mem_regionsFrom member
  have reached := spans.1
  rw [Region.markerLine] at reached
  omega

/-! ## Appended lines -/

/-- In front of the first line nothing is found. -/
theorem regionsFrom_append_start
    (tags : List String) (start : Nat) (lines script : List String) :
    regionsFrom tags start script =
      (regionsFrom tags start lines).filter (Region.endsBefore start) ++
        regionsFrom tags start (script.drop (start - start)) := by
  have none : (regionsFrom tags start lines).filter (Region.endsBefore start) = [] := by
    refine List.filter_eq_nil_iff.mpr ?_
    intro region member ended
    have bounds := bounds_of_mem_regionsFrom member
    have before : region.bodyEnd < start := of_decide_eq_true ended
    omega
  rw [none, List.nil_append, Nat.sub_self, List.drop_zero]

theorem findIdx?_append_of_some
    {ends : String → Bool} {length : Nat}
    (ended : rest.findIdx? ends = some length) (more : List String) :
    (rest ++ more).findIdx? ends = some length := by
  rw [List.findIdx?_append, ended]
  rfl

/-- What lies in front of `stop` is found whatever lines follow, if all markers there are in regions
and no region goes past it. -/
theorem regionsFrom_append
    {lines : List String} {stop : Nat} (more : List String)
    (reached : start ≤ stop) (inside : stop ≤ start + lines.length)
    (closed : ∀ index < stop, ¬ Unclosed tags start lines index)
    (outside : ∀ region ∈ regionsFrom tags start lines, ¬ region.Spans stop) :
    regionsFrom tags start (lines ++ more) =
      (regionsFrom tags start lines).filter (Region.endsBefore stop) ++
        regionsFrom tags stop ((lines ++ more).drop (stop - start)) := by
  induction start, lines using regionsFrom.induct tags with
  | case1 start =>
      obtain rfl : start = stop := by
        rw [List.length_nil] at inside
        omega
      exact regionsFrom_append_start tags start [] _
  | case2 start line rest plain inductionHypothesis =>
      rcases Nat.eq_or_lt_of_le reached with rfl | before
      · exact regionsFrom_append_start tags start _ _
      · have same :
            regionsFrom tags start (line :: rest) = regionsFrom tags (start + 1) rest :=
          regionsFrom_cons_of_plain plain
        have tail := inductionHypothesis before (by rw [List.length_cons] at inside; omega)
          (fun index below unclosed => closed index below (.of_plain plain unclosed))
          (fun region member => outside region (same ▸ member))
        rw [List.cons_append, regionsFrom_cons_of_plain plain, same, tail,
          show stop - start = stop - (start + 1) + 1 by omega, List.drop_succ_cons]
  | case3 start line rest tag opened unended inductionHypothesis =>
      rcases Nat.eq_or_lt_of_le reached with rfl | before
      · exact regionsFrom_append_start tags start _ _
      · exact absurd (unclosed_of_unended opened unended) (closed start before)
  | case4 start line rest tag opened length ended inductionHypothesis =>
      rcases Nat.eq_or_lt_of_le reached with rfl | before
      · exact regionsFrom_append_start tags start _ _
      · have inRest := lt_length_of_findIdx? ended
        have same :
            regionsFrom tags start (line :: rest) =
              ⟨tag, start + 1, start + 1 + length⟩ ::
                regionsFrom tags (start + 2 + length) (rest.drop (length + 1)) :=
          regionsFrom_cons_of_ended opened ended
        -- The first region begins in front of `stop`, so it ends there too.
        have regionBefore : start + 1 + length < stop := by
          have notSpanned := outside ⟨tag, start + 1, start + 1 + length⟩
            (by rw [same]; exact List.mem_cons_self)
          simp only [Region.Spans, Region.markerLine, Region.terminatorLine] at notSpanned
          omega
        have tail := inductionHypothesis (by omega)
          (by rw [List.length_drop]; rw [List.length_cons] at inside; omega)
          (fun index below unclosed => closed index below (.of_ended opened ended unclosed))
          (fun region member => outside region (by rw [same]; exact List.mem_cons_of_mem _ member))
        have cut :
            (line :: rest ++ more).drop (stop - start) =
              (rest.drop (length + 1) ++ more).drop (stop - (start + 2 + length)) := by
          rw [← List.drop_append_of_le_length (by omega), List.drop_drop, List.cons_append,
            show stop - start = length + 1 + (stop - (start + 2 + length)) + 1 by omega,
            List.drop_succ_cons]
        have kept : Region.endsBefore stop ⟨tag, start + 1, start + 1 + length⟩ = true :=
          decide_eq_true regionBefore
        calc
          regionsFrom tags start (line :: rest ++ more) =
              ⟨tag, start + 1, start + 1 + length⟩ ::
                regionsFrom tags (start + 2 + length) (rest.drop (length + 1) ++ more) := by
            rw [List.cons_append,
              regionsFrom_cons_of_ended opened (findIdx?_append_of_some ended more),
              List.drop_append_of_le_length (by omega)]
          _ = _ := by
            rw [tail, same, cut, List.filter_cons_of_pos kept, List.cons_append]

/-! ## Another number for the first line -/

theorem regionsFrom_add (tags : List String) (start lines : Nat) (script : List String) :
    regionsFrom tags (start + lines) script =
      (regionsFrom tags start script).map (·.offsetLines lines) := by
  induction start, script using regionsFrom.induct tags with
  | case1 start => rw [regionsFrom, regionsFrom, List.map_nil]
  | case2 start line rest plain inductionHypothesis =>
      rw [regionsFrom_cons_of_plain plain, regionsFrom_cons_of_plain plain, ← inductionHypothesis,
        Nat.add_right_comm]
  | case3 start line rest tag opened unended inductionHypothesis =>
      rw [regionsFrom_cons_of_unended opened unended, regionsFrom_cons_of_unended opened unended,
        ← inductionHypothesis, Nat.add_right_comm]
  | case4 start line rest tag opened length ended inductionHypothesis =>
      have first :
          (⟨tag, start + lines + 1, start + lines + 1 + length⟩ : Region) =
            Region.offsetLines ⟨tag, start + 1, start + 1 + length⟩ lines := by
        simp only [Region.offsetLines, Region.mk.injEq, true_and]
        omega
      rw [regionsFrom_cons_of_ended opened ended, regionsFrom_cons_of_ended opened ended,
        List.map_cons, ← inductionHypothesis, first,
        show start + lines + 2 + length = start + 2 + length + lines by omega]

end Scan

end Heredoc
