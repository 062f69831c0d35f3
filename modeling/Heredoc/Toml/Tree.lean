import Heredoc.Assoc
import Heredoc.Toml.Value

/-!
# Tables under construction

While a TOML document is read, its tables remember how they came about, because that decides who
may still add to them: a table is opened by one header only, a dotted key adds only to tables that
dotted keys made, and a value is final.
-/

namespace Heredoc.Toml

/-- How a table came about. -/
inductive Kind where
  /-- A header opened it. -/
  | opened
  /-- It lies on the way to a table that a header opened. -/
  | passed
  /-- A dotted key made it. -/
  | dotted
deriving DecidableEq, Repr

/-- A value, a table, or the tables of a repeated header. -/
inductive Node where
  | leaf (value : Value)
  | table (kind : Kind) (entries : List (String × Node))
  | tables (items : List (List (String × Node)))
deriving Repr

/-- The entries of a table under construction. -/
abbrev Entries := Assoc String Node

/-- What may be entered on the way down to a table, and what is made where nothing is. -/
structure Route where
  made : Kind
  enters : Kind → Bool

/-- The way of a header, which may enter every table. -/
def Route.ofHeader : Route := ⟨.passed, fun _ => true⟩

/-- The way of a dotted key, which stays out of tables that have their own header. -/
def Route.ofKey : Route := ⟨.dotted, fun kind => kind ≠ .opened⟩

/-- Changes the table at the end of a path. The path leads through the last of repeated tables,
and not through values. -/
def edit (route : Route) (change : Kind → Entries → Option Entries) :
    List String → Kind → Entries → Option Entries
  | [], kind, entries => change kind entries
  | key :: path, _, entries =>
      match entries.get? key with
      | none =>
          (edit route change path route.made []).map fun new =>
            entries.put key (.table route.made new)
      | some (.table kind inner) =>
          if route.enters kind then
            (edit route change path kind inner).map fun new => entries.put key (.table kind new)
          else none
      | some (.tables items) =>
          items.getLast?.bind fun last =>
            (edit route change path .opened last).map fun new =>
              entries.put key (.tables (items.dropLast ++ [new]))
      | some (.leaf _) => none

/-- Changes the table in which the last name of a path stands. -/
def editParent (route : Route) (change : String → Kind → Entries → Option Entries)
    (path : List String) (entries : Entries) : Option Entries :=
  path.getLast?.bind fun key => edit route (change key) path.dropLast .opened entries

/-- Gives a value to a key that may have dots. The key must be new, and the table that a dotted key
adds to must have been made by one. -/
def define (path : List String) (value : Value) : Entries → Option Entries :=
  editParent .ofKey
    (fun key kind inner =>
      if inner.contains key || (kind == .dotted) == (path.length == 1) then none
      else some (inner.put key (.leaf value)))
    path

/-- Opens the table of a header, which must be new or only passed through so far. -/
def openTable : List String → Entries → Option Entries :=
  editParent .ofHeader fun key _ inner =>
    match inner.get? key with
    | none => some (inner.put key (.table .opened []))
    | some (.table .passed entries) => some (inner.put key (.table .opened entries))
    | _ => none

/-- Opens the next table of a repeated header. -/
def openItem : List String → Entries → Option Entries :=
  editParent .ofHeader fun key _ inner =>
    match inner.get? key with
    | none => some (inner.put key (.tables [[]]))
    | some (.tables items) => some (inner.put key (.tables (items ++ [[]])))
    | _ => none

/-- Gives a value to a key in the table of a header. -/
def defineUnder (header path : List String) (value : Value) (entries : Entries) :
    Option Entries :=
  edit .ofHeader (fun _ inner => define path value inner) header .opened entries

mutual

/-- The finished value. -/
def Node.value : Node → Value
  | .leaf value => value
  | .table _ entries => .table (entryValues entries)
  | .tables items => .array (itemValues items)

/-- The finished entries. -/
def entryValues : List (String × Node) → List (String × Value)
  | [] => []
  | (key, node) :: rest => (key, node.value) :: entryValues rest

/-- The finished tables of a repeated header. -/
def itemValues : List (List (String × Node)) → List Value
  | [] => []
  | entries :: rest => .table (entryValues entries) :: itemValues rest

end

end Heredoc.Toml
