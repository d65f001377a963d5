import DemoReel.Toml.Value

/-!
# Documents

A document is a sequence of statements, at most one on a line.  The tree it stands for is built by
carrying them out in order; a document with a statement that cannot be carried out has no tree.
-/

namespace DemoReel.Toml

inductive Statement where
  | assignment (key : Key) (value : Node)
  /-- Opens a table. -/
  | header (key : Key)
  /-- Opens one more table of a list of tables. -/
  | repeatedHeader (key : Key)
deriving Repr

namespace Scanner

def header : Scanner Statement := do
  word "["
  let key ← key
  word "]"
  return .header key

def repeatedHeader : Scanner Statement := do
  word "[["
  let key ← key
  word "]]"
  return .repeatedHeader key

def statement : Scanner Statement :=
  repeatedHeader <|> header <|> do
    let (key, node) ← assignment (value depthLimit)
    return .assignment key node

/-- One line with its end, though it may take several lines to write a value down. -/
def line : Scanner (Option Statement) := do
  blanks
  let statement ← optional statement
  endOfLine
  return statement

def document : Scanner (List Statement) := do
  let _ ← optional (word "\ufeff")
  let lines ← many line
  blanks
  finish
  return lines.reduceOption

end Scanner

/-- A tree under construction, and the path of the table that was opened last. -/
structure Draft where
  entries : Entries := []
  current : List String := []
deriving Repr

namespace Draft

/-- Opens a table: a new one, or one that so far was only implied. -/
def openTable (key : Key) (draft : Draft) : Option Draft := do
  let entries ← Entries.modifyAt .implied (fun _ entries ↦ entries.alter key.name fun
      | none => some (.table .header [])
      | some (.table .implied inner) => some (.table .header inner)
      | some _ => none)
    key.parents .header draft.entries
  return ⟨entries, key.parents ++ [key.name]⟩

/-- Opens one more table of a list of tables. -/
def openNext (key : Key) (draft : Draft) : Option Draft := do
  let entries ← Entries.modifyAt .implied (fun _ entries ↦ entries.alter key.name fun
      | none => some (.tables [] [])
      | some (.tables last earlier) => some (.tables [] (last :: earlier))
      | some _ => none)
    key.parents .header draft.entries
  return ⟨entries, key.parents ++ [key.name]⟩

/-- Adds to the table that was opened last. -/
def assign (key : Key) (value : Node) (draft : Draft) : Option Draft := do
  let entries ← Entries.modifyAt .implied (Entries.assign key.parents key.name value)
    draft.current .header draft.entries
  return { draft with entries }

def follow (draft : Draft) : Statement → Option Draft
  | .assignment key value => draft.assign key value
  | .header key => draft.openTable key
  | .repeatedHeader key => draft.openNext key

end Draft

def ofStatements? (statements : List Statement) : Option Entries := do
  return (← statements.foldlM Draft.follow {}).entries

/-- The tree of a document. -/
def parse? (text : String) : Option Entries := do
  let (statements, _) ← Scanner.document text.toList
  ofStatements? statements

end DemoReel.Toml
