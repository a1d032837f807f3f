import ShiftReduce.Table.Lookup

namespace ShiftReduce

/-!
# Listing transition tables

All cells of a table, ordered by the text of the state and then by the column.
States and entries are listed as texts.  The kinds of actions are listed as they
are, and ordered as values; the non-terminals of gotos are listed as texts.
-/

namespace Table

/-- One line of a listing of actions: a state, a kind and an action. -/
structure ListedAction where
  state : String
  kind : Value
  entry : String

/-- One line of a listing of gotos: a state, a non-terminal and a next state. -/
structure ListedGoto where
  state : String
  column : String
  entry : String
  deriving Repr, DecidableEq

/-- The line of an action. -/
def ListedAction.of
    (store : Store)
    (cell : Cell) :
    Except Misfit ListedAction := do
  let state ← store.shown cell.state
  let entry ← store.shown cell.entry
  return ⟨state, cell.column, entry⟩

/-- The line of a goto. -/
def ListedGoto.of
    (store : Store)
    (cell : Cell) :
    Except Misfit ListedGoto := do
  let state ← store.shown cell.state
  let column ← store.shown cell.column
  let entry ← store.shown cell.entry
  return ⟨state, column, entry⟩

/-- The order of a listing of actions: by state, then by kind. -/
def ListedAction.precedes
    (store : Store)
    (first second : ListedAction) :
    Except Fault Bool :=
  store.precedes
    (.tuple [.text first.state, first.kind])
    (.tuple [.text second.state, second.kind])

/-- A line of an action with the contents of all places that it mentions. -/
def ListedAction.resolve
    (store : Store)
    (line : ListedAction) :
    ListedAction :=
  { line with kind := store.resolve line.kind }

/-- The order of a listing of gotos: by state, then by non-terminal, both by code point. -/
def ListedGoto.notAfter
    (first second : ListedGoto) :
    Bool :=
  decide (first.state < second.state) ||
    (first.state == second.state && !decide (second.column < first.column))

/-- All actions of a table. -/
def listedActions
    (store : Store)
    (table : Table) :
    Except Fault (List ListedAction) := do
  let lines ← Fault.ofRendering (table.actions.mapM (ListedAction.of store))
  let lines ← Sorting.sort (ListedAction.precedes store) lines
  return lines.map (ListedAction.resolve store)

/-- All gotos of a table. -/
def listedGotos
    (store : Store)
    (table : Table) :
    Except Fault (List ListedGoto) := do
  let lines ← Fault.ofRendering (table.gotos.mapM (ListedGoto.of store))
  return lines.mergeSort ListedGoto.notAfter

end Table

end ShiftReduce
