import Heredoc.Script
import Mathlib.Data.List.Basic

/-!
# Paths that lead down

A path that is joined with names of files has the components of the path and one more for each
name, whatever slashes and dots the path is spelled with.
-/

namespace Heredoc

/-! ## Names and paths that are text -/

theorem Text.fromUTF8?_eq_some_iff {bytes : List UInt8} {text : String} :
    String.fromUTF8? ⟨bytes.toArray⟩ = some text ↔ bytes = encode text := by
  rw [String.fromUTF8?]
  constructor
  · intro read
    split at read
    · cases read
      rfl
    · cases read
  · rintro rfl
    have same : (⟨(encode text).toArray⟩ : ByteArray) = text.toByteArray := by
      simp [encode]
    rw [same, dif_pos text.isValidUTF8]
    rfl

theorem FileName.text?_eq_some_iff {name : FileName} {text : String} :
    name.text? = some text ↔ name = .ofText text := by
  obtain ⟨bytes⟩ := name
  rw [text?, Text.fromUTF8?_eq_some_iff, ofText, FileName.mk.injEq]

theorem SystemPath.text?_eq_some_iff {path : SystemPath} {text : Path} :
    path.text? = some text ↔ path = text.system := by
  obtain ⟨bytes⟩ := path
  obtain ⟨text⟩ := text
  rw [text?, Option.map_eq_some_iff, Path.system, ofText, SystemPath.mk.injEq,
    ← Text.fromUTF8?_eq_some_iff]
  constructor
  · rintro ⟨found, read, same⟩
    rwa [← Path.mk.inj same]
  · exact fun read => ⟨text, read, rfl⟩

namespace SystemPath

/-! ## Pieces between slashes -/

theorem pieces_eq_splitOnP (bytes : List UInt8) : pieces bytes = bytes.splitOnP (· == slash) := by
  induction bytes with
  | nil => rfl
  | cons b rest inductionHypothesis =>
      rw [pieces] at inductionHypothesis ⊢
      rw [List.foldr_cons, inductionHypothesis, List.splitOnP_cons_eq_if_modifyHead]
      by_cases isSlash : b = slash
      · rw [if_pos isSlash, if_pos (beq_iff_eq.mpr isSlash)]
      · rw [if_neg isSlash, if_neg (mt beq_iff_eq.mp isSlash)]
        cases pieces' : rest.splitOnP (· == slash) with
        | nil => exact absurd pieces' (List.splitOnP_ne_nil _ rest)
        | cons piece more => rfl

theorem pieces_append_slash (before after : List UInt8) :
    pieces (before ++ slash :: after) = pieces before ++ pieces after := by
  rw [pieces_eq_splitOnP, pieces_eq_splitOnP, pieces_eq_splitOnP]
  exact List.splitOnP_append_cons before after rfl

theorem pieces_of_not_mem {bytes : List UInt8} (unbroken : slash ∉ bytes) :
    pieces bytes = [bytes] := by
  rw [pieces_eq_splitOnP]
  apply List.splitOnP_eq_singleton
  intro b member
  exact beq_eq_false_iff_ne.mpr fun same => unbroken (same ▸ member)

theorem pieces_ne_nil (bytes : List UInt8) : pieces bytes ≠ [] := by
  rw [pieces_eq_splitOnP]
  exact List.splitOnP_ne_nil _ bytes

theorem mem_of_mem_pieces {bytes piece : List UInt8} {b : UInt8}
    (isPiece : piece ∈ pieces bytes) (inPiece : b ∈ piece) : b ∈ bytes := by
  induction bytes generalizing piece with
  | nil =>
      cases List.mem_singleton.mp isPiece
      cases inPiece
  | cons first rest inductionHypothesis =>
      rw [pieces, List.foldr_cons, ← pieces] at isPiece
      by_cases isSlash : first = slash
      · rw [if_pos isSlash] at isPiece
        rcases List.mem_cons.mp isPiece with rfl | later
        · cases inPiece
        · exact List.mem_cons_of_mem first (inductionHypothesis later inPiece)
      · rw [if_neg isSlash] at isPiece
        cases found : pieces rest with
        | nil => exact absurd found (pieces_ne_nil rest)
        | cons initial more =>
            rw [found] at isPiece inductionHypothesis
            rcases List.mem_cons.mp isPiece with rfl | later
            · rcases List.mem_cons.mp inPiece with rfl | inInitial
              · exact List.mem_cons_self
              · exact List.mem_cons_of_mem first
                  (inductionHypothesis List.mem_cons_self inInitial)
            · exact List.mem_cons_of_mem first
                (inductionHypothesis (List.mem_cons_of_mem initial later) inPiece)

/-! ## Components -/

/-- The names in a path are made of its bytes. -/
theorem mem_bytes_of_mem_components {path : SystemPath} {name : FileName} {b : UInt8}
    (isComponent : .name name ∈ path.components) (inName : b ∈ name.bytes) : b ∈ path.bytes := by
  rw [components] at isComponent
  rcases List.mem_append.mp isComponent with inFront | isPiece
  · split at inFront
    · cases List.mem_singleton.mp inFront
    · split at inFront
      · cases List.mem_singleton.mp inFront
      · cases inFront
  · obtain ⟨piece, inPieces, counts⟩ := List.mem_filterMap.mp isPiece
    rw [component?] at counts
    split at counts
    · cases counts
    · split at counts
      · cases counts
      · cases counts
        exact mem_of_mem_pieces inPieces inName

/-- What follows a slash adds its own components to those in front of it. -/
theorem components_append_slash (front rest : List UInt8) :
    components ⟨front ++ slash :: rest⟩ =
      components ⟨front ++ [slash]⟩ ++ (pieces rest).filterMap component? := by
  have samePiece (after : List UInt8) :
      (pieces front ++ pieces after).head? = (pieces front).head? :=
    List.head?_append_of_ne_nil _ (pieces_ne_nil front)
  have nothing : (pieces []).filterMap component? = [] := rfl
  rw [components, components, pieces_append_slash, pieces_append_slash, samePiece, samePiece,
    List.filterMap_append, List.filterMap_append, nothing, List.append_nil, List.append_assoc,
    List.head?_append, List.head?_append]
  rfl

theorem components_append_last_slash {front : List UInt8} (nonempty : front ≠ []) :
    components ⟨front ++ [slash]⟩ = components ⟨front⟩ := by
  have nothing : (pieces []).filterMap component? = [] := rfl
  rw [components, components, pieces_append_slash,
    List.head?_append_of_ne_nil _ (pieces_ne_nil front), List.head?_append_of_ne_nil _ nonempty,
    List.filterMap_append, nothing, List.append_nil]

end SystemPath

open SystemPath (slash dot)

/-- A name that a directory can have for a file. -/
structure IsFileName (name : FileName) : Prop where
  nonempty : name.bytes ≠ []
  noSlash : slash ∉ name.bytes
  notCurrent : name.bytes ≠ [dot]
  notParent : name.bytes ≠ [dot, dot]

theorem isFileName_iff {name : FileName} :
    IsFileName name ↔
      name.bytes ≠ [] ∧ slash ∉ name.bytes ∧ name.bytes ≠ [dot] ∧ name.bytes ≠ [dot, dot] :=
  ⟨fun isName => ⟨isName.nonempty, isName.noSlash, isName.notCurrent, isName.notParent⟩,
    fun ⟨nonempty, noSlash, notCurrent, notParent⟩ =>
      ⟨nonempty, noSlash, notCurrent, notParent⟩⟩

instance (name : FileName) : Decidable (IsFileName name) :=
  decidable_of_iff _ isFileName_iff.symm

namespace SystemPath

theorem component?_of_isFileName {name : FileName} (isName : IsFileName name) :
    component? name.bytes = some (.name name) := by
  rw [component?, if_neg, if_neg isName.notParent]
  rintro (empty | current)
  · exact isName.nonempty empty
  · exact isName.notCurrent current

theorem components_of_isFileName {name : FileName} (isName : IsFileName name) :
    components ⟨name.bytes⟩ = [.name name] := by
  have notRoot : name.bytes.head? ≠ some slash :=
    fun isSlash => isName.noSlash (List.mem_of_head? isSlash)
  have notCurrent : [name.bytes].head? ≠ some [dot] :=
    fun same => isName.notCurrent (Option.some.inj same)
  rw [components, pieces_of_not_mem isName.noSlash]
  dsimp only
  rw [if_neg notRoot, if_neg notCurrent,
    List.filterMap_cons_some (component?_of_isFileName isName)]
  rfl

theorem components_join {name : FileName} (isName : IsFileName name) (path : SystemPath) :
    (path.join name).components = path.components ++ [.name name] := by
  have own : (pieces name.bytes).filterMap component? = [.name name] := by
    rw [pieces_of_not_mem isName.noSlash,
      List.filterMap_cons_some (component?_of_isFileName isName), List.filterMap_nil]
  obtain ⟨bytes⟩ := path
  by_cases empty : bytes = []
  · subst bytes
    exact components_of_isFileName isName
  · by_cases ended : bytes.getLast? = some slash
    · obtain ⟨front, rfl⟩ := List.getLast?_eq_some_iff.mp ended
      rw [join, if_pos (.inr ended), List.append_assoc, List.singleton_append,
        components_append_slash, own]
    · rw [join, if_neg (not_or.mpr ⟨empty, ended⟩), components_append_slash,
        components_append_last_slash empty, own]

theorem exists_bytes_join (path : SystemPath) (name : FileName) :
    ∃ front, (path.join name).bytes = front ++ name.bytes ∧
      (front = path.bytes ∨ front = path.bytes ++ [slash]) := by
  rw [join]
  split
  · exact ⟨path.bytes, rfl, .inl rfl⟩
  · exact ⟨path.bytes ++ [slash], by rw [List.append_assoc, List.singleton_append], .inr rfl⟩

theorem mem_bytes_join {path : SystemPath} {name : FileName} {b : UInt8}
    (member : b ∈ (path.join name).bytes) : b ∈ path.bytes ∨ b = slash ∨ b ∈ name.bytes := by
  obtain ⟨front, whole, rfl | rfl⟩ := path.exists_bytes_join name
  · rw [whole] at member
    exact (List.mem_append.mp member).imp_right .inr
  · rw [whole, List.append_assoc, List.mem_append, List.mem_append, List.mem_singleton] at member
    exact member

theorem length_le_join (path : SystemPath) (name : FileName) :
    path.bytes.length ≤ (path.join name).bytes.length := by
  obtain ⟨front, whole, rfl | rfl⟩ := path.exists_bytes_join name
  · rw [whole, List.length_append]
    exact Nat.le_add_right ..
  · rw [whole, List.append_assoc, List.length_append]
    exact Nat.le_add_right ..

/-- A path that ends in the name of a file may lead to one. -/
theorem mustBeDirectory_join {name : FileName} (isName : IsFileName name) (path : SystemPath) :
    (path.join name).mustBeDirectory = false := by
  obtain ⟨front, whole, _⟩ := path.exists_bytes_join name
  obtain ⟨start, last, split⟩ := (List.eq_nil_or_concat' name.bytes).resolve_left isName.nonempty
  have noSlash : slash ∉ start ++ [last] := split ▸ isName.noSlash
  rw [mustBeDirectory, Bool.or_eq_false_iff, ← Bool.not_eq_true, ← Bool.not_eq_true,
    List.isSuffixOf_iff_suffix, List.isSuffixOf_iff_suffix, whole, split]
  constructor
  · rintro ⟨before, same⟩
    rw [← List.append_assoc] at same
    have isSlash : slash = last := (List.append_singleton_inj.mp same).2
    exact noSlash (isSlash ▸ List.mem_append_right start List.mem_cons_self)
  · rintro ⟨before, same⟩
    have reassociated : (before ++ [slash]) ++ [dot] = (front ++ start) ++ [last] := by
      rw [List.append_assoc, List.append_assoc]
      exact same
    obtain ⟨others, isDot⟩ := List.append_singleton_inj.mp reassociated
    rcases List.eq_nil_or_concat' start with rfl | ⟨initial, previous, rfl⟩
    · exact isName.notCurrent (split.trans (isDot ▸ rfl))
    · rw [← List.append_assoc] at others
      have isSlash : slash = previous := (List.append_singleton_inj.mp others).2
      exact noSlash (by simp [isSlash])

/-- The path of a way down from a directory. -/
def descend (path : SystemPath) (names : List FileName) : SystemPath :=
  names.foldl join path

theorem components_descend
    {names : List FileName} (areNames : ∀ name ∈ names, IsFileName name) (path : SystemPath) :
    (path.descend names).components = path.components ++ names.map Component.name := by
  induction names generalizing path with
  | nil => exact (List.append_nil _).symm
  | cons name rest inductionHypothesis =>
      have tail := inductionHypothesis
        (fun other member => areNames other (List.mem_cons_of_mem name member)) (path.join name)
      rw [components_join (areNames name List.mem_cons_self), List.append_assoc,
        List.singleton_append] at tail
      exact tail

theorem length_le_descend (path : SystemPath) (names : List FileName) :
    path.bytes.length ≤ (path.descend names).bytes.length := by
  induction names generalizing path with
  | nil => exact Nat.le_refl _
  | cons name rest inductionHypothesis =>
      exact Nat.le_trans (path.length_le_join name) (inductionHypothesis (path.join name))

/-- The extension of a path is that of its last component. -/
theorem extension?_congr
    {path other : SystemPath} (same : path.components = other.components) :
    path.extension? = other.extension? := by
  rw [extension?, extension?, fileName?, fileName?, same]

end SystemPath

end Heredoc
