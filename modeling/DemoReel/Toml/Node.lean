/-!
# Configuration trees

What a TOML document says, as a tree.  Floats and dates are kept without their values, because no
setting is one; that they are well formed is checked when they are read.
-/

namespace DemoReel.Toml

/-- How a table came to be, which decides what a document may still add to it. -/
inductive Origin where
  /-- Written between braces.  Such a table is complete. -/
  | inline
  /-- Opened by a header of its own. -/
  | header
  /-- Passed through by the header of a table below it. -/
  | implied
  /-- Passed through by a dotted key. -/
  | dotted
deriving DecidableEq, Repr

inductive Node where
  | text (value : String)
  | integer (value : Int)
  | boolean (value : Bool)
  | float
  | moment
  | array (items : List Node)
  | table (origin : Origin) (entries : List (String × Node))
  /-- The tables below one repeated header: the last of them, and those before it from back to
  front.  All of them have been opened by that header. -/
  | tables (last : List (String × Node)) (earlier : List (List (String × Node)))
deriving Repr

/-- The entries of a table, each key once, in the order in which they were first written. -/
abbrev Entries := List (String × Node)

namespace Entries

/-- Replaces what `key` holds, or adds it at the end; `change` may refuse. -/
def alter (key : String) (change : Option Node → Option Node) : Entries → Option Entries
  | [] => do return [(key, ← change none)]
  | (k, node) :: rest =>
    if k = key then do return (k, ← change (some node)) :: rest
    else do return (k, node) :: (← alter key change rest)

/-- Changes the table at the end of a path, where `origin` and `entries` are the table at its start.
Tables that are missing on the way are made, as `fresh` ones.  A path of a dotted key (`fresh` is
then `dotted`) does not lead into a table that a header has opened; no path leads into a complete
one, and a repeated header stands for its last table. -/
def modifyAt (fresh : Origin) (change : Origin → Entries → Option Entries) :
    List String → Origin → Entries → Option Entries
  | [], origin, entries => change origin entries
  | key :: path, _, entries => entries.alter key fun
    | none => (modifyAt fresh change path fresh []).map (.table fresh)
    | some (.tables last earlier) => do
      return .tables (← modifyAt fresh change path .header last) earlier
    | some (.table origin inner) =>
      if origin = .inline ∨ (origin = .header ∧ fresh = .dotted) then none
      else (modifyAt fresh change path origin inner).map (.table origin)
    | some _ => none

/-- Gives a key its value.  Dotted keys may only add to tables that dotted keys have made, plain
keys only to the others, and nothing is given twice. -/
def assign (parents : List String) (key : String) (value : Node) :
    Origin → Entries → Option Entries :=
  modifyAt .dotted
    (fun origin entries ↦
      if origin = .dotted ↔ parents ≠ [] then
        entries.alter key fun
          | none => some value
          | some _ => none
      else none)
    parents

end Entries

namespace Node

/-- The elements of a list, written either way. -/
def items? : Node → Option (List Node)
  | .array items => some items
  | .tables last earlier => some ((last :: earlier).reverse.map (.table .header))
  | _ => none

/-- The named fields of a record, absent ones included.  A list gives the fields in their order, and
then all of them; a date counts as a record without fields. -/
def fields? (names : List String) : Node → Option (List (Option Node))
  | .table _ entries => some (names.map fun name ↦ entries.lookup name)
  | .moment => some (names.map fun _ ↦ none)
  | node => do
    let items ← node.items?
    if items.length < names.length then none else some ((items.take names.length).map some)

end Node

end DemoReel.Toml
