/-
Tables under construction.

A TOML text builds its table from top to bottom: a header opens a table and the lines
below it add to that table, each under a key with one part or more.  What may be added
where depends on how a table came about, so while the text is read an entry remembers
that: a table is named by a header, or implied by the header of a table inside it, or
implied by a key with several parts.

A table can be named once.  A key with several parts goes through tables that no header
named, and ends in a table that only such keys have made.
-/
import QueryView.Toml.Value

namespace QueryView
namespace Toml

/-- How a table came about. -/
inductive Origin where
  /-- A header names it. -/
  | named
  /-- A header names a table inside it. -/
  | implied
  /-- A key with several parts goes through it. -/
  | dotted
  deriving DecidableEq

/-- What stands under a key while a text is read. -/
inductive Node where
  | value (v : Value)
  | table (origin : Origin) (entries : List (Text × Node))
  /-- Tables that share one header, the last one apart. -/
  | tables (earlier : List (List (Text × Node))) (last : List (Text × Node))

/-- The entries of a table that is under construction. -/
abbrev Entries := List (Text × Node)

namespace Entries

/-- Sets the entry of a key to what `f` makes of it, or adds one, unless `f` refuses. -/
def alter (f : Option Node → Option Node) (key : Text) : Entries → Option Entries
  | [] => (f none).map fun node => [(key, node)]
  | (k, node) :: rest =>
    if k = key then (f (some node)).map fun changed => (k, changed) :: rest
    else (alter f key rest).map fun changed => (k, node) :: changed

/-- Changes the table at the end of a path of headers.  Tables on the way that are not
there are implied, and of tables that share a header the last one is meant. -/
def within (f : Entries → Option Entries) : List Text → Entries → Option Entries
  | [], entries => f entries
  | key :: rest, entries =>
    alter (fun
      | none => (within f rest []).map (.table .implied)
      | some (.value _) => none
      | some (.table origin inner) => (within f rest inner).map (.table origin)
      | some (.tables earlier last) => (within f rest last).map (.tables earlier)) key entries

/-- Names a table under a key.  A table that was implied until now leaves its place and
stands last, where it is named. -/
def nameTable (key : Text) (entries : Entries) : Option Entries :=
  match List.lookup key entries with
  | none => some (entries ++ [(key, .table .named [])])
  | some (.table .implied inner) =>
    some ((entries.filter fun e => e.1 ≠ key) ++ [(key, .table .named inner)])
  | _ => none

/-- Adds a table to those that share a header. -/
def addTable (key : Text) : Entries → Option Entries :=
  alter (fun
    | none => some (.tables [] [])
    | some (.tables earlier last) => some (.tables (earlier ++ [last]) [])
    | _ => none) key

/-- Adds a value under a key with one part or more.  The flag says that the table at hand
may be added to directly. -/
def assign (v : Value) : Bool → List Text → Entries → Option Entries
  | _, [], _ => none
  | direct, [key], entries =>
    if direct then
      alter (fun
        | none => some (.value v)
        | some _ => none) key entries
    else none
  | _, key :: rest, entries =>
    alter (fun
      | none => (assign v true rest []).map (.table .dotted)
      | some (.value _) => none
      | some (.table .named _) => none
      | some (.table .implied inner) => (assign v false rest inner).map (.table .implied)
      | some (.table .dotted inner) => (assign v true rest inner).map (.table .dotted)
      | some (.tables earlier last) => (assign v false rest last).map (.tables earlier)) key entries

end Entries

/-! ## Finished tables -/

mutual

/-- The value of a node. -/
def Node.finish : Node → Value
  | .value v => v
  | .table _ entries => .table (finishEntries entries)
  | .tables earlier last => .array (finishTables earlier ++ [.table (finishEntries last)])

def finishEntries : List (Text × Node) → Table
  | [] => []
  | (key, node) :: rest => (key, node.finish) :: finishEntries rest

def finishTables : List (List (Text × Node)) → List Value
  | [] => []
  | entries :: rest => .table (finishEntries entries) :: finishTables rest

end

end Toml
end QueryView
