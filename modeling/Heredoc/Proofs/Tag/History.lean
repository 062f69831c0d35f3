import Heredoc.Proofs.Engine.View
import Heredoc.Proofs.Scan.Loop
import Heredoc.Proofs.Tag.Order

/-!
# What is left of the history of a table

A table is filled by inserts, of which the last one of a tag counts, and it may hold its pairs in
any order, in another one after each insert. Main statement: two tables that were given the same
tags list them alike and find the same regions, whatever their keys are, and if the tags have the
same keys, a check gives the same with either table (`TagTable.history_forgotten`).
-/

namespace Heredoc

namespace TagTable

/-! ## Inserts -/

/-- The table may be what these inserts leave: its pairs may have come into any order. -/
inductive Records : List (String × String) → TagTable → Prop
  | empty : Records [] .empty
  | insert {inserts : List (String × String)} {table : TagTable}
      (earlier : Records inserts table) (tag key : String) :
      Records (inserts ++ [(tag, key)]) (table.insert tag key)
  | reorder {inserts : List (String × String)} {table other : TagTable}
      (earlier : Records inserts table) (same : other.entries.Perm table.entries) :
      Records inserts other

theorem Records.insertAll
    {inserts : List (String × String)} {table : TagTable} (earlier : Records inserts table)
    (later : List (String × String)) :
    Records (inserts ++ later) (table.insertAll later) := by
  induction later generalizing inserts table with
  | nil =>
      rw [List.append_nil]
      exact earlier
  | cons pair later inductionHypothesis =>
      rw [List.append_cons]
      exact inductionHypothesis (earlier.insert pair.1 pair.2)

/-- The key of the last insert of a tag. -/
def lastKey? (inserts : List (String × String)) (tag : String) : Option String :=
  (inserts.reverse.find? fun insert => insert.1 = tag).map Prod.snd

theorem lastKey?_append_singleton
    (inserts : List (String × String)) (tag key other : String) :
    lastKey? (inserts ++ [(tag, key)]) other =
      if tag = other then some key else lastKey? inserts other := by
  rw [lastKey?, List.reverse_append, List.reverse_singleton, List.singleton_append, List.find?_cons]
  by_cases same : tag = other
  · simp [same]
  · simp [same, lastKey?]

theorem isSome_lastKey?_iff {inserts : List (String × String)} {tag : String} :
    (lastKey? inserts tag).isSome = true ↔ tag ∈ inserts.map Prod.fst := by
  rw [lastKey?, Option.isSome_map, List.find?_isSome]
  simp

/-- Whether two histories end alike can be seen from the tags that they mention. -/
theorem lastKey?_eq_of_given
    {inserts others : List (String × String)}
    (given : ∀ tag ∈ inserts.map Prod.fst ++ others.map Prod.fst,
      lastKey? inserts tag = lastKey? others tag)
    (tag : String) :
    lastKey? inserts tag = lastKey? others tag := by
  by_cases member : tag ∈ inserts.map Prod.fst ++ others.map Prod.fst
  · exact given tag member
  · rw [List.mem_append, not_or, ← isSome_lastKey?_iff, ← isSome_lastKey?_iff,
      Option.not_isSome_iff_eq_none, Option.not_isSome_iff_eq_none] at member
    rw [member.1, member.2]

/-- The table has one pair for each tag, with the key of its last insert. -/
structure Keeps (inserts : List (String × String)) (table : TagTable) : Prop where
  distinct : table.entries.keys.Nodup
  lookup_eq : ∀ tag, table.lookup tag = lastKey? inserts tag

namespace Keeps

variable {inserts : List (String × String)} {table other : TagTable}

theorem empty : Keeps [] .empty :=
  ⟨.nil, fun _ => rfl⟩

theorem insert (keeps : Keeps inserts table) (tag key : String) :
    Keeps (inserts ++ [(tag, key)]) (table.insert tag key) := by
  refine ⟨Assoc.nodup_keys_put keeps.distinct tag key, ?_⟩
  intro other
  rw [lookup_insert, keeps.lookup_eq, lastKey?_append_singleton]

theorem reorder (keeps : Keeps inserts table) (same : other.entries.Perm table.entries) :
    Keeps inserts other := by
  refine ⟨(same.map Prod.fst).nodup_iff.mpr keeps.distinct, ?_⟩
  intro tag
  exact (Assoc.get?_eq_of_perm keeps.distinct same tag).trans (keeps.lookup_eq tag)

theorem mem_tags_iff (keeps : Keeps inserts table) (tag : String) :
    tag ∈ table.tags ↔ tag ∈ inserts.map Prod.fst := by
  rw [TagTable.mem_tags_iff, contains, Assoc.contains, ← isSome_lastKey?_iff, ← keeps.lookup_eq,
    lookup]

theorem pairwise_tags (keeps : Keeps inserts table) : table.tags.Pairwise Precedes :=
  pairwise_precedes_mergeSort keeps.distinct

theorem tags_eq
    {others : List (String × String)} (keeps : Keeps inserts table)
    (otherKeeps : Keeps others other)
    (sameTags : ∀ tag, tag ∈ inserts.map Prod.fst ↔ tag ∈ others.map Prod.fst) :
    table.tags = other.tags := by
  apply eq_of_pairwise_precedes keeps.pairwise_tags otherKeeps.pairwise_tags
  intro tag
  rw [keeps.mem_tags_iff, otherKeeps.mem_tags_iff, sameTags]

end Keeps

theorem Records.keeps
    {inserts : List (String × String)} {table : TagTable} (records : Records inserts table) :
    Keeps inserts table := by
  induction records with
  | empty => exact .empty
  | insert _ tag key inductionHypothesis => exact inductionHypothesis.insert tag key
  | reorder _ same inductionHypothesis => exact inductionHypothesis.reorder same

/-! ## Lists of tags -/

/-- These are the tags of the inserts, each one once, in their order. -/
structure Lists (inserts : List (String × String)) (listed : List String) : Prop where
  ordered : listed.Pairwise Precedes
  once : ∀ tag, listed.count tag = if tag ∈ inserts.map Prod.fst then 1 else 0

theorem Lists.mem_iff
    {inserts : List (String × String)} {listed : List String} (lists : Lists inserts listed)
    (tag : String) :
    tag ∈ listed ↔ tag ∈ inserts.map Prod.fst := by
  rw [← List.count_pos_iff, lists.once]
  split
  · rename_i given
    exact iff_of_true Nat.one_pos given
  · rename_i missing
    exact iff_of_false (Nat.lt_irrefl 0) missing

theorem Keeps.lists
    {inserts : List (String × String)} {table : TagTable} (keeps : Keeps inserts table) :
    Lists inserts table.tags := by
  refine ⟨keeps.pairwise_tags, ?_⟩
  intro tag
  rw [(nodup_of_pairwise_precedes keeps.pairwise_tags).count]
  simp only [keeps.mem_tags_iff]

theorem Lists.unique
    {inserts : List (String × String)} {listed others : List String}
    (lists : Lists inserts listed) (otherLists : Lists inserts others) :
    listed = others := by
  apply eq_of_pairwise_precedes lists.ordered otherLists.ordered
  intro tag
  rw [lists.mem_iff, otherLists.mem_iff]

/-- With both tables the same is found: the same list of tags, the same markers, the same
regions. -/
structure FindsAlike (table other : TagTable) : Prop where
  tags : table.tags = other.tags
  markers : ∀ line, Marker.start? table.tags line = Marker.start? other.tags line
  regions : ∀ view, scan table view = scan other view

theorem findsAlike_of_tags {table other : TagTable} (same : table.tags = other.tags) :
    FindsAlike table other := by
  refine ⟨same, ?_, ?_⟩
  · intro line
    rw [same]
  · intro view
    rw [scan, scan, same]

end TagTable

/-! ## Checks -/

namespace Engine

variable {table other : TagTable}

theorem dispatchRegion_withTags
    (sameKeys : ∀ tag, table.lookup tag = other.lookup tag) (engine : Engine) :
    Engine.dispatchRegion { engine with tags := table } =
      Engine.dispatchRegion { engine with tags := other } := by
  funext view region
  simp only [dispatchRegion, validatorFor?, sameKeys]

theorem validate_withTags
    (sameTags : table.tags = other.tags)
    (sameKeys : ∀ tag, table.lookup tag = other.lookup tag) (engine : Engine) (view : View) :
    Engine.validate { engine with tags := table } view =
      Engine.validate { engine with tags := other } view := by
  have sameDispatch :
      Engine.dispatch { engine with tags := table } view =
        Engine.dispatch { engine with tags := other } view := by
    funext regions
    rw [dispatch, dispatch, dispatchRegion_withTags sameKeys]
  rw [validate, validate, sameDispatch]
  exact congrArg (Except.map _) ((TagTable.findsAlike_of_tags sameTags).regions view)

end Engine

namespace TagTable

/-- A table lists its tags in one order, however its pairs came to be where they are, and a scan and
a check see nothing of that: the regions depend on the tags alone, the diagnostics on the tags and
their keys. -/
theorem history_forgotten
    {inserts others : List (String × String)} {table other : TagTable}
    (records : Records inserts table) (otherRecords : Records others other) :
    (∀ tag, table.lookup tag = lastKey? inserts tag) ∧
      Lists inserts table.tags ∧
        (∀ listed, Lists inserts listed → listed = table.tags) ∧
          (∀ listed : List String, listed.Perm table.entries.keys →
            listed.mergeSort listedBefore = table.tags ∧
              ∀ view,
                Scan.loop (listed.mergeSort listedBefore) view [] (.seeking 0) = scan table view) ∧
            ((∀ tag, tag ∈ inserts.map Prod.fst ↔ tag ∈ others.map Prod.fst) →
              FindsAlike table other) ∧
              ((∀ tag, lastKey? inserts tag = lastKey? others tag) →
                FindsAlike table other ∧
                  ∀ (engine : Engine) (view : View),
                    Engine.validate { engine with tags := table } view =
                      Engine.validate { engine with tags := other } view) := by
  have keeps := records.keeps
  have otherKeeps := otherRecords.keeps
  refine ⟨keeps.lookup_eq, keeps.lists, fun listed lists => lists.unique keeps.lists, ?_, ?_, ?_⟩
  · intro listed enumerated
    have sorted := mergeSort_eq_tags keeps.distinct enumerated
    refine ⟨sorted, ?_⟩
    intro view
    rw [sorted, Scan.loop_eq_scan]
  · intro sameTags
    exact findsAlike_of_tags (keeps.tags_eq otherKeeps sameTags)
  · intro sameKeys
    have sameTags : ∀ tag, tag ∈ inserts.map Prod.fst ↔ tag ∈ others.map Prod.fst := by
      intro tag
      rw [← isSome_lastKey?_iff, ← isSome_lastKey?_iff, sameKeys]
    have sameList := keeps.tags_eq otherKeeps sameTags
    refine ⟨findsAlike_of_tags sameList, Engine.validate_withTags sameList ?_⟩
    intro tag
    rw [keeps.lookup_eq, otherKeeps.lookup_eq, sameKeys]

/-- Four tags, one of which starts another and two of which take as many bytes. -/
def overwritten : List (String × String) :=
  [("PY", "xml"), ("z", "json"), ("PY-3", "yaml"), ("PY", "yaml"), ("é", "xml"), ("PY-3", "json")]

def writtenOnce : List (String × String) :=
  [("é", "xml"), ("PY-3", "json"), ("z", "json"), ("PY", "yaml")]

def otherKeys : List (String × String) :=
  [("z", "z"), ("é", "z"), ("PY", "json"), ("PY-3", "z")]

/-- An engine whose only validator finds the same in every body. -/
def unclosing : Engine where
  tags := .empty
  validators :=
    Registry.empty.register
      ⟨"json", fun _ => 5, fun _ => .findings [.error "unclosed" (.lineStart 0)]⟩
  settings := {}

def nestedScript : Document :=
  ⟨"a.sh", 1, ["cat <<PY-3", "[1", "PY-3", "cat <<PY", "1", "PY"]⟩

/-- The pairs of the second table came into another order; in the third one the tags have other
keys, so that the same regions go to other validators. -/
theorem history_forgotten_overwritten :
    let table := TagTable.empty.insertAll overwritten
    let shuffled : TagTable := ⟨writtenOnce.reverse⟩
    let rekeyed := TagTable.empty.insertAll otherKeys
    let check (tags : TagTable) := Engine.validate { unclosing with tags } nestedScript.view
    let finding (line : UInt32) : Diagnostic :=
      ⟨"unclosed", .error, .lineStart line, "heredoc:json", .malformed⟩
    Records overwritten table ∧ Records writtenOnce shuffled ∧ Records otherKeys rekeyed ∧
      (∀ tag, lastKey? overwritten tag = lastKey? writtenOnce tag) ∧
        (∀ tag, tag ∈ overwritten.map Prod.fst ↔ tag ∈ otherKeys.map Prod.fst) ∧
          table.tags = ["PY-3", "PY", "é", "z"] ∧
            check shuffled = .ok ⟨[finding 1], ["json"], 5⟩ ∧
              scan rekeyed nestedScript.view = .ok [⟨"PY-3", 1, 2⟩, ⟨"PY", 4, 5⟩] ∧
                check rekeyed = .ok ⟨[finding 4], ["json"], 5⟩ := by
  intro table shuffled rekeyed check finding
  have records : Records overwritten table := Records.empty.insertAll overwritten
  have shuffledRecords : Records writtenOnce shuffled :=
    (Records.empty.insertAll writtenOnce).reorder (by decide)
  have rekeyedRecords : Records otherKeys rekeyed := Records.empty.insertAll otherKeys
  have sameKeys : ∀ tag, lastKey? overwritten tag = lastKey? writtenOnce tag :=
    lastKey?_eq_of_given (by decide)
  have sameTags : ∀ tag, tag ∈ overwritten.map Prod.fst ↔ tag ∈ otherKeys.map Prod.fst := by
    intro tag
    constructor
    · exact (by decide : ∀ tag ∈ overwritten.map Prod.fst, tag ∈ otherKeys.map Prod.fst) tag
    · exact (by decide : ∀ tag ∈ otherKeys.map Prod.fst, tag ∈ overwritten.map Prod.fst) tag
  obtain ⟨_, _, _, enumerated, _, checkedAlike⟩ := history_forgotten records shuffledRecords
  obtain ⟨_, _, _, _, foundAlike, _⟩ := history_forgotten records rekeyedRecords
  have sorted :
      ["PY-3", "PY", "é", "z"].mergeSort listedBefore = ["PY-3", "PY", "é", "z"] :=
    List.mergeSort_of_pairwise (by decide)
  have tags : table.tags = ["PY-3", "PY", "é", "z"] :=
    (enumerated _ (by decide)).1.symm.trans sorted
  have rekeyedTags : rekeyed.tags = ["PY-3", "PY", "é", "z"] :=
    (foundAlike sameTags).tags.symm.trans tags
  refine ⟨records, shuffledRecords, rekeyedRecords, sameKeys, sameTags, tags, ?_, ?_, ?_⟩
  · refine ((checkedAlike sameKeys).2 unclosing nestedScript.view).symm.trans ?_
    rw [Engine.validate_view, tags]
    decide +kernel
  · refine ((foundAlike sameTags).regions nestedScript.view).symm.trans ?_
    rw [scan, nestedScript.lines_view, tags]
    decide +kernel
  · change Engine.validate _ _ = _
    rw [Engine.validate_view, rekeyedTags]
    decide +kernel

end TagTable

end Heredoc
