import ShiftReduce.Table.Cell
import ShiftReduce.Value.Order

namespace ShiftReduce

/-!
# Consulting transition tables

A missing action counts as the error action, and a missing goto as no value.
Besides looking up cells, a table says which kinds it expects in a state: it
computes the answer from its cells, has a fixed answer, or has none at all.
-/

namespace Table

/-- The table with the given cells, inserted in order. -/
def build
    (store : Store)
    (identity : Nat)
    (actions gotos : List Cell)
    (initial : Value)
    (diagnosis : Diagnosis) :
    Except Fault Table := do
  let actions ← Cell.insertAll store [] actions
  let gotos ← Cell.insertAll store [] gotos
  return ⟨identity, actions, gotos, initial, diagnosis⟩

/-- The table with the cells of the given rows. -/
def ofRows
    (store : Store)
    (identity : Nat)
    (actionRows gotoRows : List Row)
    (initial : Value) :
    Except Fault Table :=
  build store identity
    (actionRows.flatMap Row.cells)
    (gotoRows.flatMap Row.cells)
    initial
    .computed

/-- The action in a state on a kind; the error action where the table has none. -/
def action
    (store : Store)
    (table : Table)
    (state kind : Value) :
    Except Fault Value := do
  let entry ← Cell.find? store table.actions state kind
  return entry.getD (.action (.error .direct))

/-- The state to go to after a reduction, or no value where the table has none. -/
def goto
    (store : Store)
    (table : Table)
    (state nonterminal : Value) :
    Except Fault Value := do
  let entry ← Cell.find? store table.gotos state nonterminal
  return entry.getD .none

/-- Whether an entry is anything but an error action. -/
def isWelcoming :
    Value → Bool
  | .action entry => !entry.isError
  | _ => true

/-- The columns of the cells that make a state expect them. -/
def expectedColumns
    (store : Store)
    (state : Value) :
    List Cell → Except Fault (List Value)
  | [] => .ok []
  | cell :: rest => do
      let matching ← store.same cell.state state
      let columns ← expectedColumns store state rest
      if matching && isWelcoming cell.entry then
        return cell.column :: columns
      else
        return columns

/-- The kinds with an action other than an error in a state, in order. -/
def expectedKinds
    (store : Store)
    (table : Table)
    (state : Value) :
    Except Fault (List Value) := do
  let columns ← expectedColumns store state table.actions
  store.sorted columns

/-- The table's own answer to the question which kinds it expects in a state. -/
def expected
    (store : Store)
    (table : Table)
    (state : Value) :
    Except Fault (List Value) :=
  match table.diagnosis with
  | .computed => table.expectedKinds store state
  | .absent => .error ((Value.table table).lacks "expected")
  | .fixed answer => store.members answer

/-- The kinds that a report on a refused token lists. -/
def diagnose
    (store : Store)
    (table : Table)
    (state : Value) :
    Except Fault (List Value) :=
  match table.diagnosis with
  | .computed => table.expectedKinds store state
  | .absent => .ok []
  | .fixed answer => store.members answer

/-- Whether the cells of a table can be seen from outside. -/
def isListable
    (table : Table) :
    Bool :=
  match table.diagnosis with
  | .computed => true
  | _ => false

end Table

end ShiftReduce
