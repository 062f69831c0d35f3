import Heredoc.Yaml.Document
import Heredoc.Yaml.Value

/-!
# Loading YAML documents

The value of a document. References are followed each time they are met, so the depth of nesting
and the number of references followed are both limited.
-/

namespace Heredoc.Yaml

/-- The way from the root of a document to a node. -/
inductive Path where
  | root
  | item (parent : Path) (index : Nat)
  | entry (parent : Path) (key : String)
  | unknown (parent : Path)
  /-- What a reference at the path stands for. -/
  | referent (parent : Path)
deriving Repr

mutual

/-- The text of a path. -/
def Path.text : Path → String
  | .root => "."
  | .item parent index => parent.text ++ "[" ++ toString index ++ "]"
  | .entry parent key => parent.front ++ key
  | .unknown parent => parent.front ++ "?"
  | .referent parent => parent.text

/-- The text in front of a key below a path. -/
def Path.front : Path → String
  | .root => ""
  | .item parent index => parent.text ++ "[" ++ toString index ++ "]."
  | .entry parent key => parent.front ++ key ++ "."
  | .unknown parent => parent.front ++ "?."
  | .referent parent => parent.text ++ "."

end

/-- Why a document has no value. -/
inductive Failure where
  /-- The document breaks off. -/
  | broken (problem : Problem)
  | tooDeep (mark : Mark)
  | tooManyReferences
  | endless
  /-- A value is not allowed; the place is that of the innermost node around it. -/
  | content (message : String) (place : Option (Mark × Path))
deriving Repr

namespace Failure

/-- Notes the place of a content failure that has none yet. -/
def placedAt (mark : Mark) (path : Path) : Failure → Failure
  | .content message none => .content message (some (mark, path))
  | failure => failure

/-- Where a failure is shown. -/
def mark : Failure → Mark
  | .broken problem => problem.mark
  | .tooDeep mark => mark
  | .tooManyReferences | .endless => ⟨0, 0, 0⟩
  | .content _ place => (place.map Prod.fst).getD ⟨0, 0, 0⟩

/-- The wording of a failure without its place. -/
def cause : Failure → String
  | .broken problem => problem.cause.message
  | .tooDeep _ => "recursion limit exceeded"
  | .tooManyReferences => "repetition limit exceeded"
  | .endless => "EOF while parsing a value"
  | .content message none => message
  | .content message (some (_, path)) =>
      if path.text = Path.root.text then message else path.text ++ ": " ++ message

/-- The full message of a failure. -/
def message : Failure → String
  | .broken problem => problem.message
  | failure =>
      failure.cause ++
        if failure.mark.isOrigin then "" else " at " ++ failure.mark.text

end Failure

/-- Collections may be nested this deep. -/
def depthLimit : Nat := 128

/-- So many references may be followed for each part of a document. -/
def referencesPerPart : Nat := 100

/-- What was loaded, the index of the part after it, and how many references were followed. -/
structure Loaded (α : Type) where
  value : α
  next : Nat
  followed : Nat

/-- A load gives a value or fails. -/
abbrev LoadResult (α : Type) := Except Failure (Loaded α)

namespace Document

/-- The part at an index, or the problem at which the document breaks off. -/
def part (document : Document) (index : Nat) : Except Failure (Part × Mark) :=
  match document.parts[index]? with
  | some part => .ok part
  | none => match document.problem with
    | some problem => .error (.broken problem)
    | none => .error .endless

/-- Loads what a node holds, and puts a tag of the document's own around it. -/
def withTag (tag : Option NodeTag) (load : Option NodeTag → LoadResult Value) :
    LoadResult Value :=
  match tag with
  | some (.own name) =>
      (load none).map fun loaded => { loaded with value := .tagged name loaded.value }
  | _ => load tag

mutual

/-- Loads the node at an index that is no reference. -/
def loadNode (document : Document) (depth : Nat) (path : Path) (index followed : Nat) :
    LoadResult Value :=
  match document.part index with
  | .error failure => .error failure
  | .ok (part, mark) =>
      let result : LoadResult Value := match part with
        | .scalar text style tag =>
            withTag tag fun tag =>
              match scalarValue (style == .plain) tag text with
              | .ok value => .ok ⟨value, index + 1, followed⟩
              | .error message => .error (.content message none)
        | .sequenceStart tag =>
            withTag tag fun _ => match depth with
              | 0 => .error (.tooDeep mark)
              | depth + 1 =>
                  (document.loadItems depth path 0 (index + 1) followed).map fun loaded =>
                    { loaded with value := .sequence loaded.value }
        | .mappingStart tag =>
            withTag tag fun _ => match depth with
              | 0 => .error (.tooDeep mark)
              | depth + 1 =>
                  (document.loadEntries depth path [] (index + 1) followed).map fun loaded =>
                    { loaded with value := .mapping loaded.value }
        | _ => .ok ⟨.null, index + 1, followed⟩
      result.mapError (·.placedAt mark path)
termination_by (depth, 0, 0)

/-- Loads the node at an index, or what the reference there stands for. -/
def load (document : Document) (depth : Nat) (path : Path) (index followed : Nat) :
    LoadResult Value :=
  match document.parts[index]? with
  | some (.reference anchor, _) =>
      if followed + 1 > document.parts.size * referencesPerPart then
        .error .tooManyReferences
      else
        let target := (document.anchors.get? anchor).getD document.parts.size
        (document.loadNode depth (.referent path) target (followed + 1)).map fun loaded =>
          { loaded with next := index + 1 }
  | _ => document.loadNode depth path index followed
termination_by (depth, 1, 0)

/-- Loads the items of a sequence from an index on; `count` items came before. -/
def loadItems (document : Document) (depth : Nat) (path : Path) (count index followed : Nat) :
    LoadResult (List Value) :=
  match _h : document.parts[index]? with
  | none => match document.problem with
    | some problem => .error (.broken problem)
    | none => .error .endless
  | some (.sequenceEnd, _) => .ok ⟨[], index + 1, followed⟩
  | some _ =>
      match document.load depth (.item path count) index followed with
      | .error failure => .error failure
      | .ok item =>
          if index < item.next then
            (document.loadItems depth path (count + 1) item.next item.followed).map fun rest =>
              { rest with value := item.value :: rest.value }
          else .error .endless
termination_by (depth, 2, document.parts.size - index)
decreasing_by
  · exact Prod.Lex.right _ (Prod.Lex.left _ _ (by omega))
  · have inside : index < document.parts.size := by
      simp only [Array.getElem?_eq_some_iff] at _h
      exact _h.1
    exact Prod.Lex.right _ (Prod.Lex.right _ (by omega))

/-- Loads the entries of a mapping from an index on; `entries` came before, last one first. -/
def loadEntries (document : Document) (depth : Nat) (path : Path)
    (entries : List (Value × Value)) (index followed : Nat) :
    LoadResult (List (Value × Value)) :=
  match _h : document.parts[index]? with
  | none => match document.problem with
    | some problem => .error (.broken problem)
    | none => .error .endless
  | some (.mappingEnd, _) => .ok ⟨entries.reverse, index + 1, followed⟩
  | some (part, _) =>
      match document.load depth path index followed with
      | .error failure => .error failure
      | .ok key =>
          match entries.find? (·.1.same key.value) with
          | some (known, _) => .error (.content (repeatedKey known) none)
          | none =>
              let valuePath := match part with
                | .scalar text .. => .entry path text
                | _ => .unknown path
              match document.load depth valuePath key.next key.followed with
              | .error failure => .error failure
              | .ok value =>
                  if index < value.next then
                    document.loadEntries depth path ((key.value, value.value) :: entries)
                      value.next value.followed
                  else .error .endless
termination_by (depth, 2, document.parts.size - index)
decreasing_by
  · exact Prod.Lex.right _ (Prod.Lex.left _ _ (by omega))
  · exact Prod.Lex.right _ (Prod.Lex.left _ _ (by omega))
  · have inside : index < document.parts.size := by
      simp only [Array.getElem?_eq_some_iff] at _h
      exact _h.1
    exact Prod.Lex.right _ (Prod.Lex.right _ (by omega))

end

/-- The value of a document. One that breaks off has none, and what is wrong with the part that
was read comes first. -/
def value (document : Document) : Except Failure Value :=
  match document.load depthLimit .root 0 0 with
  | .error failure => .error failure
  | .ok loaded => match document.problem with
    | some problem => .error (.broken problem)
    | none => .ok loaded.value

end Document

/-- The first failure of a stream. -/
def firstFailure (text : List Char) : Option Failure :=
  (documents text).findSome? fun document =>
    match document.value with
    | .ok _ => none
    | .error failure => some failure

end Heredoc.Yaml
