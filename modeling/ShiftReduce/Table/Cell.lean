import ShiftReduce.Value.Dictionary

namespace ShiftReduce

/-!
# Cells and rows

A table is a list of cells, each filed under a pair of a state and a column.
The columns of actions are token kinds, those of gotos are non-terminals.  A
later cell for an equal pair keeps the earlier pair and its place, and takes the
new entry, so that no two cells answer the same question.

Rows group the cells of one state.  A later row for an equal state replaces the
whole earlier row.
-/

namespace Cell

/-- What a cell for a state and a column is filed under. -/
def pair
    (state column : Value) :
    Value :=
  .tuple [state, column]

/-- Whether a cell answers for a state and a column. -/
def answers
    (store : Store)
    (state column : Value)
    (cell : Cell) :
    Except Fault Bool :=
  store.sameKey (pair cell.state cell.column) (pair state column)

/-- Put an entry under a state and a column that are known to have hash keys. -/
def put
    (store : Store)
    (state column entry : Value) :
    List Cell → Except Fault (List Cell)
  | [] => .ok [⟨state, column, entry⟩]
  | cell :: rest => do
      if ← cell.answers store state column then
        return ⟨cell.state, cell.column, entry⟩ :: rest
      else
        let rest ← put store state column entry rest
        return cell :: rest

/-- The entry under a state and a column, provided that they can be filed. -/
def find?
    (store : Store)
    (cells : List Cell)
    (state column : Value) :
    Except Fault (Option Value) := do
  let _ ← store.hashKey (pair state column)
  let found ← cells.findM? (answers store state column)
  return found.map Cell.entry

/-- Put a cell among cells that are there already, provided that it can be filed. -/
def insert
    (store : Store)
    (cells : List Cell)
    (cell : Cell) :
    Except Fault (List Cell) := do
  let _ ← store.hashKey (pair cell.state cell.column)
  put store cell.state cell.column cell.entry cells

/-- Put cells in order among cells that are there already. -/
def insertAll
    (store : Store)
    (cells : List Cell) :
    List Cell → Except Fault (List Cell)
  | [] => .ok cells
  | cell :: rest => do
      let cells ← insert store cells cell
      insertAll store cells rest

end Cell

/-- The cells of one state: an entry for each column. -/
structure Row where
  state : Value
  entries : List (Value × Value)

namespace Row

/-- The cells of a row, in order. -/
def cells
    (row : Row) :
    List Cell :=
  row.entries.map fun entry => ⟨row.state, entry.1, entry.2⟩

/-- Put a row under its state: an equal state keeps its place and loses its old row. -/
def put
    (store : Store)
    (row : Row) :
    List Row → Except Fault (List Row)
  | [] => .ok [row]
  | earlier :: rest => do
      if ← store.sameKey earlier.state row.state then
        return ⟨earlier.state, row.entries⟩ :: rest
      else
        let rest ← put store row rest
        return earlier :: rest

/-- Put a row among rows that are there already, provided that its state can be filed. -/
def insert
    (store : Store)
    (rows : List Row)
    (row : Row) :
    Except Fault (List Row) := do
  let _ ← store.hashKey row.state
  put store row rows

end Row

end ShiftReduce
