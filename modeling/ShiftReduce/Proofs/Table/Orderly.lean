import ShiftReduce.Proofs.Value.Plain
import ShiftReduce.Table.Lookup

namespace ShiftReduce

/-!
# Orderly tables

A table is orderly if its states are constants, its columns are texts and
constants, and its entries are actions that lead to constants or reduce by rules
with a non-terminal for a head.  Consulting such a table never fails, and no store
has a say in the answer: `Table.actionAt` and `Table.gotoAt?` are all there is to it.
-/

namespace Cell

/-- The entry of the first cell for a state and a column. -/
def entryAt?
    (cells : List Cell)
    (state column : Value) :
    Option Value :=
  (cells.find? fun cell =>
    (pair cell.state cell.column).equals (pair state column)).map Cell.entry

/-- Whether a cell is filed under constants. -/
def isFiled
    (cell : Cell) :
    Bool :=
  cell.state.isConstant && cell.column.isConstant

theorem pair_constant
    {state column : Value}
    (stateConstant : state.isConstant = true)
    (columnConstant : column.isConstant = true) :
    (pair state column).isConstant = true := by
  simp [pair, Value.isConstant, Value.areConstants, stateConstant,
    columnConstant]

theorem entryAt?_mem
    {cells : List Cell}
    {state column entry : Value}
    (found : entryAt? cells state column = some entry) :
    ∃ cell ∈ cells,
      cell.entry = entry ∧
        (pair cell.state cell.column).equals (pair state column) = true := by
  obtain ⟨cell, first, same⟩ := Option.map_eq_some_iff.mp found
  have matching := List.find?_some first
  exact ⟨cell, List.mem_of_find?_eq_some first, same, matching⟩

/-- Looking up a constant among cells that are filed under constants never fails. -/
theorem find?_eq_entryAt?
    (store : Store)
    {cells : List Cell}
    {state column : Value}
    (filed : ∀ cell ∈ cells, cell.isFiled = true)
    (stateConstant : state.isConstant = true)
    (columnConstant : column.isConstant = true) :
    find? store cells state column = .ok (entryAt? cells state column) := by
  have constant := pair_constant stateConstant columnConstant
  obtain ⟨key, keyed⟩ := Value.hashKey_constant constant
  have hashed : store.hashKey (pair state column) = .ok key := by
    rw [Store.hashKey, store.resolve_constant constant]
    exact keyed
  unfold find? entryAt?
  simp only [hashed, bind, Except.bind]
  clear hashed keyed
  induction cells with
  | nil =>
      rfl
  | cons cell rest inductionHypothesis =>
      have parts := Bool.and_eq_true_iff.mp (filed cell List.mem_cons_self)
      have others :=
        inductionHypothesis fun other member =>
          filed other (List.mem_cons_of_mem cell member)
      have answer :
          answers store state column cell =
            .ok ((pair cell.state cell.column).equals (pair state column)) :=
        store.sameKey_constant (pair_constant parts.1 parts.2) constant
      cases matching :
          (pair cell.state cell.column).equals (pair state column) with
      | true =>
          simp [List.findM?, answer, matching, bind, Except.bind, pure,
            Except.pure]
      | false =>
          simp only [List.findM?, answer, matching, bind, Except.bind,
            List.find?_cons]
          exact others

end Cell

/-- Whether a rule has a non-terminal for a head and constants in its body. -/
def Production.isProper
    (production : Production) :
    Bool :=
  match production.head with
  | .nonterminal _ => Value.areConstants production.body
  | _ => false

/-- Whether an action leads to a constant state or reduces by a proper rule, if any. -/
def Action.isProper :
    Action → Bool
  | .shift _ next => next.isConstant
  | .reduce _ (.production production) => production.isProper
  | .reduce _ _ => false
  | _ => true

/-- Whether a value is an action that can be an entry of an orderly table. -/
def Value.isProperAction :
    Value → Bool
  | .action carried => carried.isProper
  | _ => false

namespace Table

/-- A table whose parts are of the sorts that they are meant to be of. -/
structure Orderly
    (table : Table) :
    Prop where
  initial : table.initial.isConstant = true
  actions :
    ∀ cell ∈ table.actions,
      cell.state.isConstant = true ∧
        cell.column.isText = true ∧
        cell.entry.isProperAction = true
  gotos :
    ∀ cell ∈ table.gotos,
      cell.isFiled = true ∧ cell.entry.isConstant = true
  diagnosis : table.diagnosis = .computed

/-- The action of a table in a state on a kind. -/
def actionAt
    (table : Table)
    (state : Value)
    (kind : String) :
    Value :=
  (Cell.entryAt? table.actions state (.text kind)).getD
    (.action (.error .direct))

/-- The state that a table goes to, if any; to go to no value is not to go at all. -/
def gotoAt?
    (table : Table)
    (state head : Value) :
    Option Value :=
  (Cell.entryAt? table.gotos state head).filter fun next => !next.isNone

theorem gotoAt?_present
    {table : Table}
    {state head next : Value}
    (found : table.gotoAt? state head = some next) :
    next.isNone = false := by
  have present := (Option.filter_eq_some_iff.mp found).2
  simpa using present

theorem expectedColumns_texts
    (store : Store)
    {state : Value}
    (constant : state.isConstant = true)
    {cells : List Cell}
    (sorts :
      ∀ cell ∈ cells,
        cell.state.isConstant = true ∧ cell.column.isText = true) :
    ∃ columns,
      expectedColumns store state cells = .ok columns ∧
        columns.all Value.isText = true := by
  induction cells with
  | nil =>
      exact ⟨[], rfl, rfl⟩
  | cons cell rest inductionHypothesis =>
      obtain ⟨cellConstant, columnText⟩ := sorts cell List.mem_cons_self
      obtain ⟨columns, computed, texts⟩ :=
        inductionHypothesis fun other member =>
          sorts other (List.mem_cons_of_mem cell member)
      simp only [expectedColumns, store.same_constant cellConstant constant,
        computed, bind, Except.bind]
      split
      · exact ⟨cell.column :: columns, rfl, by simp [columnText, texts]⟩
      · exact ⟨columns, rfl, texts⟩

namespace Orderly

variable
  {table : Table}
  {state : Value}

theorem action_eq
    (orderly : table.Orderly)
    (store : Store)
    (constant : state.isConstant = true)
    (kind : String) :
    table.action store state (.text kind) = .ok (table.actionAt state kind) := by
  have filed : ∀ cell ∈ table.actions, cell.isFiled = true := by
    intro cell member
    obtain ⟨stateConstant, columnText, _⟩ := orderly.actions cell member
    unfold Cell.isFiled
    rw [stateConstant]
    cases column : cell.column with
    | text content => rfl
    | _ => simp [column, Value.isText] at columnText
  have found :=
    Cell.find?_eq_entryAt? store filed constant (rfl : (Value.text kind).isConstant = true)
  simp only [action, found, bind, Except.bind, pure, Except.pure, actionAt]

theorem goto_eq
    (orderly : table.Orderly)
    (store : Store)
    (constant : state.isConstant = true)
    {head : Value}
    (headConstant : head.isConstant = true) :
    table.goto store state head =
      .ok ((table.gotoAt? state head).getD .none) := by
  have filed : ∀ cell ∈ table.gotos, cell.isFiled = true := by
    intro cell member
    exact (orderly.gotos cell member).1
  have found := Cell.find?_eq_entryAt? store filed constant headConstant
  simp only [goto, found, bind, Except.bind, pure, Except.pure, gotoAt?]
  cases entry : Cell.entryAt? table.gotos state head with
  | none => rfl
  | some next =>
      cases next with
      | none => rfl
      | _ => rfl

theorem actionAt_proper
    (orderly : table.Orderly)
    (state : Value)
    (kind : String) :
    (table.actionAt state kind).isProperAction = true := by
  unfold actionAt
  cases entry : Cell.entryAt? table.actions state (.text kind) with
  | none => rfl
  | some action =>
      obtain ⟨cell, member, rfl, _⟩ := Cell.entryAt?_mem entry
      exact (orderly.actions cell member).2.2

theorem gotoAt?_constant
    (orderly : table.Orderly)
    {head next : Value}
    (found : table.gotoAt? state head = some next) :
    next.isConstant = true := by
  have entry := (Option.filter_eq_some_iff.mp found).1
  obtain ⟨cell, member, rfl, _⟩ := Cell.entryAt?_mem entry
  exact (orderly.gotos cell member).2

/-- An orderly table can say what it expects in a state. -/
theorem diagnose_ok
    (orderly : table.Orderly)
    (store : Store)
    (constant : state.isConstant = true) :
    ∃ expected, table.diagnose store state = .ok expected := by
  obtain ⟨columns, computed, texts⟩ :=
    expectedColumns_texts store constant fun cell member =>
      ⟨(orderly.actions cell member).1, (orderly.actions cell member).2.1⟩
  refine ⟨columns.mergeSort Value.notAfter, ?_⟩
  simp only [diagnose, orderly.diagnosis, expectedKinds, computed, bind,
    Except.bind, Store.sorted, texts, if_true]

end Orderly

end Table

end ShiftReduce
