import Heredoc.Proofs.Xml.Elements
import Heredoc.Validator.Basic
import Mathlib.Data.List.Infix

/-!
# When an XML text is well formed

What is wrong with a reading is said by what was read before it: a reading is outside all elements
when the readings before it are balanced. Main statement: the validator is silent exactly if the
readings are well formed, and otherwise gives one error, for the first reading that offends if there
is one (`xml_verdict`).
-/

namespace Heredoc.Xml

/-! ## Offences -/

/-- An element that is in no other begins after these readings. -/
def RootAfter (readings front : List Reading) : Prop :=
  ∃ reading after,
    readings = front ++ reading :: after ∧ reading.event.begins = true ∧ Balanced front

/-- What is wrong with a reading that comes after others. -/
inductive Offends (before : List Reading) : Reading → Complaint → Prop where
  | refused {message : String} {offset : Nat} :
      Offends before ⟨.refused message, offset⟩ ⟨message, offset⟩
  | secondRoot {event : Event} {offset : Nat}
      (begins : event.begins = true)
      (outside : Balanced before)
      (earlier : ∃ front, RootAfter before front) :
      Offends before ⟨event, offset⟩ ⟨"multiple root elements", offset⟩
  | strayText {content : List UInt8} {offset : Nat}
      (outside : Balanced before)
      (solid : content.all (Text.byteIn Text.isAsciiBlank) = false) :
      Offends before ⟨.text content, offset⟩
        ⟨"text outside the root element",
          offset + (content.takeWhile (Text.byteIn Text.isAsciiBlank)).length⟩
  | strayCdata {offset : Nat}
      (outside : Balanced before) :
      Offends before ⟨.cdata, offset⟩ ⟨"CDATA outside the root element", offset⟩

/-- No reading offends, seen from those before it. -/
def Unoffending (readings : List Reading) : Prop :=
  ∀ before reading after complaint,
    readings = before ++ reading :: after → ¬ Offends before reading complaint

/-- The first reading that offends does so in this way. -/
def FirstOffence (readings : List Reading) (complaint : Complaint) : Prop :=
  ∃ before reading after,
    readings = before ++ reading :: after ∧ Unoffending before ∧ Offends before reading complaint

theorem Unoffending.concat
    {before : List Reading} {reading : Reading}
    (sound : Unoffending before)
    (soundHere : ∀ complaint, ¬ Offends before reading complaint) :
    Unoffending (before ++ [reading]) := by
  intro front item after complaint whole
  rcases concat_eq_append_cons whole with ⟨rfl, rfl, _⟩ | ⟨middle, split, _⟩
  · exact soundHere complaint
  · exact sound front item middle complaint split

theorem FirstOffence.concat
    {before : List Reading} {complaint : Complaint}
    (first : FirstOffence before complaint) (reading : Reading) :
    FirstOffence (before ++ [reading]) complaint := by
  obtain ⟨front, item, after, whole, sound, offends⟩ := first
  refine ⟨front, item, after ++ [reading], ?_, sound, offends⟩
  rw [whole, List.append_assoc, List.cons_append]

theorem rootAfter_concat_iff {before front : List Reading} {reading : Reading} :
    RootAfter (before ++ [reading]) front ↔
      RootAfter before front ∨
        front = before ∧ reading.event.begins = true ∧ Balanced before := by
  constructor
  · intro root
    obtain ⟨item, after, whole, begins, outside⟩ := root
    rcases concat_eq_append_cons whole with ⟨rfl, rfl, _⟩ | ⟨middle, split, _⟩
    · exact .inr ⟨rfl, begins, outside⟩
    · exact .inl ⟨item, middle, split, begins, outside⟩
  · intro root
    rcases root with ⟨item, after, whole, begins, outside⟩ | ⟨rfl, begins, outside⟩
    · refine ⟨item, after ++ [reading], ?_, begins, outside⟩
      rw [whole, List.append_assoc, List.cons_append]
    · exact ⟨reading, [], rfl, begins, outside⟩

/-! ## One reading -/

/-- There is one root so far, or none. -/
def CountsRoots (readings : List Reading) (roots : Nat) : Prop :=
  (roots = 1 ∧ ∃ front, RootAfter readings front) ∨
    (roots = 0 ∧ ∀ front, ¬ RootAfter readings front)

theorem CountsRoots.concat
    {before : List Reading} {reading : Reading} {roots : Nat}
    (counts : CountsRoots before roots)
    (inside : ¬ (reading.event.begins = true ∧ Balanced before)) :
    CountsRoots (before ++ [reading]) roots := by
  have same (front : List Reading) :
      RootAfter (before ++ [reading]) front ↔ RootAfter before front := by
    rw [rootAfter_concat_iff]
    exact or_iff_left fun here => inside here.2
  simpa only [CountsRoots, same] using counts

/-- The nesting of a check that has taken these readings. -/
structure Tracks (readings : List Reading) (nesting : Nesting) : Prop where
  open_ : nesting.open_ = openAfter [] readings
  roots : CountsRoots readings nesting.roots

section Taking

variable {before : List Reading} {nesting : Nesting}

theorem Tracks.outside_iff (tracks : Tracks before nesting) (matched : Matched before) :
    nesting.open_ = [] ↔ Balanced before := by
  rw [tracks.open_, openAfter_eq_nil_iff matched]

theorem countRoot_cases
    (tracks : Tracks before nesting) (matched : Matched before)
    (reading : Reading) (begins : reading.event.begins = true) :
    (nesting.countRoot reading.offset = .error ⟨.secondRoot, reading.offset⟩ ∧
        Offends before reading ⟨"multiple root elements", reading.offset⟩) ∨
      ∃ counted,
        nesting.countRoot reading.offset = .ok counted ∧
          counted.open_ = nesting.open_ ∧
          CountsRoots (before ++ [reading]) counted.roots ∧
          ∀ complaint, ¬ Offends before reading complaint := by
  have sound
      (first : ¬ (Balanced before ∧ ∃ front, RootAfter before front)) (complaint : Complaint) :
      ¬ Offends before reading complaint := by
    intro offends
    cases offends with
    | secondRoot _ balanced earlier => exact first ⟨balanced, earlier⟩
    | _ => cases begins
  obtain ⟨open_, roots⟩ := nesting
  have outside := tracks.outside_iff matched
  cases open_ with
  | cons name outer =>
      have within : ¬ Balanced before := fun balanced => nomatch outside.mpr balanced
      refine .inr ⟨⟨name :: outer, roots⟩, rfl, rfl, ?_, sound fun both => within both.1⟩
      exact tracks.roots.concat fun here => within here.2
  | nil =>
      have balanced : Balanced before := outside.mp rfl
      rcases tracks.roots with ⟨one, earlier⟩ | ⟨none, noRoot⟩
      · obtain rfl : roots = 1 := one
        exact .inl ⟨rfl, .secondRoot begins balanced earlier⟩
      · obtain rfl : roots = 0 := none
        refine .inr ⟨⟨[], 1⟩, rfl, rfl, .inl ⟨rfl, before, ?_⟩, sound fun both => ?_⟩
        · exact rootAfter_concat_iff.mpr (.inr ⟨rfl, begins, balanced⟩)
        · obtain ⟨front, root⟩ := both.2
          exact noRoot front root

/-- A reading is refused exactly for its offence, and otherwise the nesting keeps track. -/
theorem take_cases
    (tracks : Tracks before nesting) (matched : Matched before) (reading : Reading) :
    (∃ complaint,
        nesting.take reading = .error complaint ∧ Offends before reading complaint) ∨
      ∃ next,
        nesting.take reading = .ok next ∧
          Tracks (before ++ [reading]) next ∧
          ∀ complaint, ¬ Offends before reading complaint := by
  have outside := tracks.outside_iff matched
  obtain ⟨event, offset⟩ := reading
  -- An event that neither opens nor closes leaves everything as it is.
  have keeps (flat : event.isFlat = true) (other : event.begins = false) :
      Tracks (before ++ [⟨event, offset⟩]) nesting := by
    refine ⟨?_, tracks.roots.concat fun here => ?_⟩
    · rw [openAfter_concat, Event.openAfter_of_isFlat flat, tracks.open_]
    · rw [other] at here
      exact Bool.false_ne_true here.1
  cases event with
  | opening name =>
      rcases countRoot_cases tracks matched ⟨.opening name, offset⟩ rfl with
        ⟨refused, offends⟩ | ⟨counted, counts, opened, roots, sound⟩
      · refine .inl ⟨_, ?_, offends⟩
        simp only [Nesting.take, refused]
        rfl
      · refine .inr ⟨{ counted with open_ := name :: counted.open_ }, ?_, ⟨?_, roots⟩, sound⟩
        · simp only [Nesting.take, counts]
          rfl
        · rw [openAfter_concat, ← tracks.open_, ← opened]
          rfl
  | emptyElement =>
      rcases countRoot_cases tracks matched ⟨.emptyElement, offset⟩ rfl with
        ⟨refused, offends⟩ | ⟨counted, counts, opened, roots, sound⟩
      · refine .inl ⟨_, ?_, offends⟩
        simp only [Nesting.take, refused]
        rfl
      · refine .inr ⟨counted, ?_, ⟨?_, roots⟩, sound⟩
        · simp only [Nesting.take, counts]
          rfl
        · rw [openAfter_concat, ← tracks.open_, ← opened]
          rfl
  | closing =>
      refine .inr ⟨{ nesting with open_ := nesting.open_.tail }, rfl, ⟨?_, ?_⟩, ?_⟩
      · rw [openAfter_concat, ← tracks.open_]
        rfl
      · exact tracks.roots.concat fun here => Bool.false_ne_true here.1
      · intro complaint offends
        cases offends with
        | secondRoot begins => cases begins
  | text content =>
      by_cases stray :
          nesting.open_.isEmpty && !content.all (Text.byteIn Text.isAsciiBlank)
      · refine .inl ⟨_, if_pos stray, ?_⟩
        rw [Bool.and_eq_true, List.isEmpty_iff, Bool.not_eq_true'] at stray
        exact .strayText (outside.mp stray.1) stray.2
      · refine .inr ⟨nesting, if_neg stray, keeps rfl rfl, ?_⟩
        intro complaint offends
        rw [Bool.and_eq_true, List.isEmpty_iff, Bool.not_eq_true'] at stray
        cases offends with
        | secondRoot begins => cases begins
        | strayText balanced solid => exact stray ⟨outside.mpr balanced, solid⟩
  | cdata =>
      by_cases stray : nesting.open_.isEmpty = true
      · exact .inl ⟨_, if_pos stray, .strayCdata (outside.mp (List.isEmpty_iff.mp stray))⟩
      · refine .inr ⟨nesting, if_neg stray, keeps rfl rfl, ?_⟩
        intro complaint offends
        cases offends with
        | secondRoot begins => cases begins
        | strayCdata balanced => exact stray (List.isEmpty_iff.mpr (outside.mpr balanced))
  | aside =>
      refine .inr ⟨nesting, rfl, keeps rfl rfl, ?_⟩
      intro complaint offends
      cases offends with
      | secondRoot begins => cases begins
  | refused message => exact .inl ⟨_, rfl, .refused⟩

end Taking

/-! ## All readings -/

/-- A run is refused for the first offence, and without one it keeps track to the end. -/
theorem foldlM_take_cases {readings : List Reading} (matched : Matched readings) :
    (∃ complaint,
        readings.foldlM Nesting.take Nesting.start = .error complaint ∧
          FirstOffence readings complaint) ∨
      ∃ nesting,
        readings.foldlM Nesting.take Nesting.start = .ok nesting ∧
          Tracks readings nesting ∧
          Unoffending readings := by
  induction readings using List.reverseRecOn with
  | nil =>
      have noReading {front : List Reading} {reading : Reading} {after : List Reading} :
          [] ≠ front ++ reading :: after :=
        (List.append_ne_nil_of_right_ne_nil front (List.cons_ne_nil _ _)).symm
      refine .inr ⟨Nesting.start, rfl, ⟨rfl, .inr ⟨rfl, ?_⟩⟩, ?_⟩
      · intro front root
        obtain ⟨reading, after, whole, _⟩ := root
        exact noReading whole
      · intro before reading after complaint whole
        exact (noReading whole).elim
  | append_singleton before reading inductionHypothesis =>
      rw [List.foldlM_append]
      rcases inductionHypothesis matched.of_append with
        ⟨complaint, refused, first⟩ | ⟨nesting, taken, tracks, sound⟩
      · exact .inl ⟨complaint, by rw [refused]; rfl, first.concat reading⟩
      · rw [taken]
        rcases take_cases tracks matched.of_append reading with
          ⟨complaint, refused, offends⟩ | ⟨next, stepped, follows, soundHere⟩
        · refine .inl ⟨complaint, ?_, before, reading, [], rfl, sound, offends⟩
          simp only [List.foldlM_cons, bind, Except.bind, refused]
        · refine .inr ⟨next, ?_, follows, sound.concat soundHere⟩
          simp only [List.foldlM_cons, List.foldlM_nil, bind, Except.bind, stepped]
          rfl

/-- What is asked of the readings of a text. -/
structure WellFormed (text : List Char) (readings : List Reading) : Prop where
  complete : ∀ message offset, ⟨.refused message, offset⟩ ∉ readings
  closed : Balanced readings
  cdata_inside : ∀ before offset after,
    readings = before ++ ⟨.cdata, offset⟩ :: after → ¬ Balanced before
  text_inside : ∀ before content offset after,
    readings = before ++ ⟨.text content, offset⟩ :: after →
      content.all (Text.byteIn Text.isAsciiBlank) = false → ¬ Balanced before
  root :
    (∃! front, RootAfter readings front) ∨
      (∀ front, ¬ RootAfter readings front) ∧ text.all Text.isBlank = true

/-- What is wrong with the readings of a text that are not well formed. -/
inductive Faults (text : List Char) (readings : List Reading) : Complaint → Prop where
  | offence {complaint : Complaint}
      (first : FirstOffence readings complaint) :
      Faults text readings complaint
  | unclosed {name : String}
      (sound : Unoffending readings)
      (innermost : Innermost readings name) :
      Faults text readings ⟨"unclosed tag <" ++ name ++ ">", Text.byteLength text⟩
  | noRoot
      (sound : Unoffending readings)
      (closed : Balanced readings) :
      Faults text readings ⟨"no root element", Text.byteLength text⟩

section Verdict

variable {text : List Char} {readings : List Reading}

theorem RootAfter.isFront {front : List Reading} (root : RootAfter readings front) :
    front <+: readings := by
  obtain ⟨reading, after, whole, _⟩ := root
  rw [whole]
  exact List.prefix_append front _

theorem RootAfter.earlier
    {front later : List Reading}
    (root : RootAfter readings front) (other : RootAfter readings later)
    (shorter : front <+: later) (different : front ≠ later) :
    RootAfter later front := by
  obtain ⟨reading, after, whole, begins, outside⟩ := root
  obtain ⟨otherReading, otherAfter, otherWhole, _, _⟩ := other
  obtain ⟨middle, rfl⟩ := shorter
  rw [whole, List.append_assoc] at otherWhole
  have rest := List.append_cancel_left otherWhole
  cases middle with
  | nil => exact absurd (List.append_nil front).symm different
  | cons first middle =>
      obtain ⟨rfl, _⟩ := List.cons.inj rest
      exact ⟨reading, middle, rfl, begins, outside⟩

/-- Without an offence there is no second root. -/
theorem Unoffending.root_unique
    {front other : List Reading}
    (sound : Unoffending readings)
    (root : RootAfter readings front) (otherRoot : RootAfter readings other) :
    other = front := by
  have noLater
      {first second : List Reading}
      (root : RootAfter readings first) (later : RootAfter readings second)
      (shorter : first <+: second) :
      first = second := by
    by_contra different
    have earlier := root.earlier later shorter different
    obtain ⟨reading, after, whole, begins, outside⟩ := later
    exact sound second reading after _ whole (.secondRoot begins outside ⟨first, earlier⟩)
  rcases List.prefix_or_prefix_of_prefix root.isFront otherRoot.isFront with shorter | longer
  · exact (noLater root otherRoot shorter).symm
  · exact noLater otherRoot root longer

theorem WellFormed.unoffending (wellFormed : WellFormed text readings) :
    Unoffending readings := by
  intro before reading after complaint whole offends
  cases offends with
  | refused =>
      apply wellFormed.complete _ _
      rw [whole]
      exact List.mem_append_right before List.mem_cons_self
  | @secondRoot event offset begins outside earlier =>
      obtain ⟨front, item, later, split, itemBegins, frontOutside⟩ := earlier
      have here : RootAfter readings before := ⟨_, after, whole, begins, outside⟩
      have first : RootAfter readings front := by
        refine ⟨item, later ++ ⟨event, offset⟩ :: after, ?_, itemBegins, frontOutside⟩
        rw [whole, split, List.append_assoc, List.cons_append]
      rcases wellFormed.root with unique | ⟨noRoot, _⟩
      · have same := unique.unique here first
        rw [same] at split
        have := congrArg List.length split
        simp only [List.length_append, List.length_cons] at this
        omega
      · exact noRoot before here
  | strayText outside solid => exact wellFormed.text_inside _ _ _ _ whole solid outside
  | strayCdata outside => exact wellFormed.cdata_inside _ _ _ whole outside

theorem FirstOffence.not_unoffending
    {complaint : Complaint} (first : FirstOffence readings complaint) :
    ¬ Unoffending readings := by
  intro sound
  obtain ⟨before, reading, after, whole, _, offends⟩ := first
  exact sound before reading after complaint whole offends

theorem Unoffending.wellFormed
    (sound : Unoffending readings) (closed : Balanced readings)
    (root :
      (∃ front, RootAfter readings front) ∨
        (∀ front, ¬ RootAfter readings front) ∧ text.all Text.isBlank = true) :
    WellFormed text readings where
  complete message offset member := by
    obtain ⟨before, after, whole⟩ := List.append_of_mem member
    exact sound before _ after _ whole .refused
  closed := closed
  cdata_inside before offset after whole outside :=
    sound before _ after _ whole (.strayCdata outside)
  text_inside before content offset after whole solid outside :=
    sound before _ after _ whole (.strayText outside solid)
  root := by
    rcases root with ⟨front, found⟩ | nothing
    · exact .inl ⟨front, found, fun other otherRoot => sound.root_unique found otherRoot⟩
    · exact .inr nothing

/-- The readings are well formed and nothing is said, or what is said is what is wrong. -/
theorem complaint?_cases (text : List Char) (matched : Matched readings) :
    (complaint? text readings = none ∧ WellFormed text readings) ∨
      ∃ complaint,
        complaint? text readings = some complaint ∧
          ¬ WellFormed text readings ∧
          Faults text readings complaint := by
  rcases foldlM_take_cases matched with
    ⟨complaint, refused, first⟩ | ⟨⟨open_, roots⟩, taken, tracks, sound⟩
  · refine .inr ⟨complaint, by rw [complaint?, refused], ?_, .offence first⟩
    exact fun wellFormed => first.not_unoffending wellFormed.unoffending
  have outside := tracks.outside_iff matched
  have counts : CountsRoots readings roots := tracks.roots
  cases open_ with
  | cons name outer =>
      have leaves := leaves_openAfter matched
      rw [← tracks.open_] at leaves
      refine .inr ⟨_, by rw [complaint?, taken]; rfl, ?_, .unclosed sound leaves.innermost⟩
      exact fun wellFormed => List.cons_ne_nil name outer (outside.mpr wellFormed.closed)
  | nil =>
      have closed : Balanced readings := outside.mp rfl
      by_cases missing : roots = 0 ∧ ¬ text.all Text.isBlank = true
      · refine .inr ⟨⟨"no root element", Text.byteLength text⟩, ?_, ?_, .noRoot sound closed⟩
        · simp only [complaint?, taken, Nesting.leftOver, if_pos missing]
          rfl
        · intro wellFormed
          rcases counts with ⟨one, _⟩ | ⟨_, noRoot⟩
          · omega
          · rcases wellFormed.root with unique | ⟨_, blank⟩
            · exact noRoot _ unique.exists.choose_spec
            · exact missing.2 blank
      · refine .inl ⟨?_, sound.wellFormed closed ?_⟩
        · simp only [complaint?, taken, Nesting.leftOver, if_neg missing]
          rfl
        · rcases counts with ⟨_, found⟩ | ⟨none, noRoot⟩
          · exact .inl found
          · exact .inr ⟨noRoot, by_contra fun solid => missing ⟨none, solid⟩⟩

end Verdict

/-! ## The verdict -/

theorem check_eq (body : String) :
    check body =
      (complaint? body.toList (readings body.toList)).map (Complaint.diagnostic body.toList) := by
  have same := check?_readings body
  rw [check?_eq] at same
  exact (Option.some.inj same).symm

/-- The reader closes only the innermost open element; the validator is silent exactly if what is
read is well formed, and otherwise gives one error, for what is wrong. -/
theorem xml_verdict (body : String) :
    Matched (readings body.toList) ∧
      (Validator.xml.run body = .findings [] ↔ WellFormed body.toList (readings body.toList)) ∧
      (¬ WellFormed body.toList (readings body.toList) →
        ∃ complaint,
          let place := Text.positionAt body.toList complaint.offset
          Validator.xml.run body =
              .findings [.error complaint.message (.singleChar place.line place.character)] ∧
            Faults body.toList (readings body.toList) complaint) := by
  have matched := matched_readings body.toList
  have run : Validator.xml.run body = .findings (check body).toList := rfl
  refine ⟨matched, ?_⟩
  rw [run, check_eq]
  rcases complaint?_cases body.toList matched with
    ⟨silent, wellFormed⟩ | ⟨complaint, spoken, illFormed, faults⟩
  · rw [silent]
    exact ⟨iff_of_true rfl wellFormed, fun illFormed => absurd wellFormed illFormed⟩
  · rw [spoken]
    refine ⟨iff_of_false nofun illFormed, fun _ => ⟨complaint, rfl, faults⟩⟩

end Heredoc.Xml
