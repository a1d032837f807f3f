import Mathlib.Data.List.Find
import ShiftReduce.Proofs.Table.Orderly
import ShiftReduce.Proofs.Table.Path
import ShiftReduce.Proofs.Value.Reading

namespace ShiftReduce

/-!
# Cells filed under constants

Cells that are filed under constant states answer every question about a constant state and
a label, that is, about a kind or a non-terminal: the first cell does whose state and column
are equal to them (`Cell.find?_of_filed`).  What cells are filed under besides states may be
anything that compares with a label.

So a table with constant states gives the same answers whatever becomes of the store, as
long as tuples are kept (`Table.ConstantStates.sameAnswers`).
-/

/-- A search in which every question has an answer is a search by the answers. -/
theorem findM?_of_ok
    {α : Type}
    {ask : α → Except Fault Bool}
    {answer : α → Bool}
    {items : List α}
    (answered : ∀ item ∈ items, ask item = .ok (answer item)) :
    items.findM? ask = .ok (items.find? answer) := by
  induction items with
  | nil => rfl
  | cons item rest inductionHypothesis =>
      have others :=
        inductionHypothesis fun other member =>
          answered other (List.mem_cons_of_mem item member)
      rw [List.findM?, answered item List.mem_cons_self, List.find?_cons]
      cases answer item with
      | true => rfl
      | false => exact others

/-- Whether a value is what a table is asked about in a state: a kind or a non-terminal. -/
def Value.isLabel :
    Value → Bool
  | .text _ => true
  | .nonterminal _ => true
  | _ => false

namespace Value

variable {label other : Value}

theorem isConstant_label
    (labels : label.isLabel = true) :
    label.isConstant = true := by
  cases label with
  | text | nonterminal => rfl
  | _ => cases labels

theorem isLabel_of_isText
    (isText : label.isText = true) :
    label.isLabel = true := by
  cases label with
  | text => rfl
  | _ => cases isText

theorem canonical_label
    (labels : label.isLabel = true) :
    label.canonical = label := by
  cases label with
  | text | nonterminal => rfl
  | _ => cases labels

/-- Labels are equal only if they are the same. -/
theorem equals_label_iff
    (labels : label.isLabel = true)
    (otherLabels : other.isLabel = true) :
    label.equals other = true ↔ label = other := by
  rw [equals_iff_canonical (isConstant_label labels) (isConstant_label otherLabels),
    canonical_label labels, canonical_label otherLabels]

/-- What equals a label is that label. -/
theorem eq_of_equals_label
    (labels : label.isLabel = true)
    (equal : other.equals label = true) :
    other = label := by
  cases label with
  | text content =>
      cases other with
      | text => rw [eq_of_beq equal]
      | _ => cases equal
  | nonterminal carried =>
      cases other with
      | nonterminal => rw [eq_of_beq equal]
      | _ => cases equal
  | _ => cases labels

end Value

namespace Store

variable
  {store : Store}
  {value label : Value}

/-- A label is its own key. -/
theorem key_label
    (store : Store)
    (labels : label.isLabel = true) :
    store.key label = label := by
  rw [key, store.reading_constant (Value.isConstant_label labels),
    Value.canonical_label labels]

/-- What is no mention equals a label, or not, whatever it mentions inside. -/
theorem reading_equals_label
    (store : Store)
    (noMention : value.isMention = false)
    (labels : label.isLabel = true) :
    (store.reading value).equals label = value.equals label := by
  cases value with
  | none | bool | int | text | nonterminal => rfl
  | shared => cases noMention
  | _ =>
      cases label with
      | text | nonterminal => rfl
      | _ => cases labels

/-- What is no mention compares with a label at once. -/
theorem same_label_of_no_mention
    (store : Store)
    (noMention : value.isMention = false)
    (labels : label.isLabel = true) :
    store.same value label = .ok (value.equals label) := by
  cases label with
  | text | nonterminal =>
      cases value with
      | shared => cases noMention
      | _ => rfl
  | _ => cases labels

end Store

namespace Cell

variable
  {store other : Store}
  {state label : Value}
  {cell : Cell}
  {cells : List Cell}

/-- A cell is filed under a constant state, and under a constant column if that is mentioned. -/
structure Filed
    (store : Store)
    (cell : Cell) :
    Prop where
  state : store.IsConstant cell.state
  column : cell.column.isMention = true → store.IsConstant cell.column

/-- Whether a cell is filed under equals of a state and a label. -/
def isFor
    (store : Store)
    (state label : Value)
    (cell : Cell) :
    Bool :=
  (store.reading cell.state).equals (store.reading state) &&
    (store.reading cell.column).equals label

/-- Comparing a filed column with a label leads to a verdict. -/
theorem Filed.same_column
    (filed : cell.Filed store)
    (labels : label.isLabel = true) :
    store.same cell.column label =
      .ok ((store.reading cell.column).equals label) := by
  cases mention : cell.column.isMention with
  | true =>
      have constant := Value.isConstant_label labels
      rw [Store.same_of_constants (filed.column mention)
          (store.isConstant_of_constant constant),
        store.reading_constant constant]
  | false =>
      rw [store.reading_equals_label mention labels]
      exact store.same_label_of_no_mention mention labels

/-- Members of pairs are compared one after the other. -/
theorem same_pair
    (store : Store)
    (state column otherState otherColumn : Value) :
    store.same (pair state column) (pair otherState otherColumn) =
      bothHold (store.same state otherState) fun _ =>
        bothHold (store.same column otherColumn) fun _ => .ok true :=
  rfl

/-- A pair of constants is a constant, and reads as the pair of what they read as. -/
theorem pair_of_constants
    {column : Value}
    (stateConstant : store.IsConstant state)
    (columnConstant : store.IsConstant column) :
    store.isConstantWithin (Store.deepestConstant + 1) (pair state column) = true ∧
      store.readWithin (Store.deepestConstant + 1) (pair state column) =
        pair (store.reading state) (store.reading column) := by
  have members : store.tupleMembers? (pair state column) = some [state, column] := rfl
  have both :
      ∀ item ∈ [state, column],
        store.isConstantWithin Store.deepestConstant item = true :=
    List.forall_mem_cons.mpr
      ⟨stateConstant, List.forall_mem_singleton.mpr columnConstant⟩
  exact
    ⟨(Store.isConstantWithin_of_members members).mpr both,
      Store.readWithin_of_members members⟩

/-- A constant state and a label can be looked up as a pair. -/
theorem hashKey_pair
    (constant : store.IsConstant state)
    (labels : label.isLabel = true) :
    ∃ hash, store.hashKey (pair state label) = .ok hash :=
  Store.hashKey_of_constant
    (pair_of_constants constant
      (store.isConstant_of_constant (Value.isConstant_label labels))).1

/-- What is filed under equals of a label is filed under a constant. -/
theorem Filed.isConstant_column
    (filed : cell.Filed store)
    (labels : label.isLabel = true)
    (equal : (store.reading cell.column).equals label = true) :
    store.IsConstant cell.column := by
  cases mention : cell.column.isMention with
  | true => exact filed.column mention
  | false =>
      rw [store.reading_equals_label mention labels] at equal
      rw [Value.eq_of_equals_label labels equal]
      exact store.isConstant_of_constant (Value.isConstant_label labels)

/-- A cell that is filed under equals of a state and a label has their key. -/
theorem Filed.hashKey_eq
    (filed : cell.Filed store)
    (constant : store.IsConstant state)
    (labels : label.isLabel = true)
    (isFor : cell.isFor store state label = true) :
    store.hashKey (pair cell.state cell.column) =
      store.hashKey (pair state label) := by
  obtain ⟨states, columns⟩ := Bool.and_eq_true_iff.mp isFor
  have labelConstant := Value.isConstant_label labels
  obtain ⟨isConstant, reads⟩ :=
    pair_of_constants filed.state (filed.isConstant_column labels columns)
  obtain ⟨otherConstant, otherReads⟩ :=
    pair_of_constants constant (store.isConstant_of_constant labelConstant)
  apply Store.hashKey_of_equal_readings isConstant otherConstant
  rw [reads, otherReads, store.reading_constant labelConstant]
  change Id.run (Value.agreesAll .byPlace _ _) = true
  rw [Value.agreesAll_byPlace_cons, Value.agreesAll_byPlace_cons, states, columns]
  rfl

/-- A filed cell answers if it is filed under equals. -/
theorem Filed.answers_eq
    (filed : cell.Filed store)
    (constant : store.IsConstant state)
    (labels : label.isLabel = true) :
    cell.answers store state label = .ok (cell.isFor store state label) := by
  have same :
      store.same (pair cell.state cell.column) (pair state label) =
        .ok (cell.isFor store state label) := by
    rw [same_pair, filed.same_column labels,
      Store.same_of_constants filed.state constant, isFor]
    cases (store.reading cell.state).equals (store.reading state) with
    | false => rfl
    | true =>
        cases (store.reading cell.column).equals label with
        | false => rfl
        | true => rfl
  rw [answers, Store.sameKey, same]
  apply Store.judgeKeys_ok
  intro isFor
  rw [filed.hashKey_eq constant labels isFor]
  exact HashKey.mayMeet_self _

/-- Looking up a label in a constant state finds the first cell that is filed under them. -/
theorem find?_of_filed
    (filed : ∀ cell ∈ cells, cell.Filed store)
    (constant : store.IsConstant state)
    (labels : label.isLabel = true) :
    find? store cells state label =
      .ok ((cells.find? (isFor store state label)).map Cell.entry) := by
  obtain ⟨hash, hashed⟩ := hashKey_pair constant labels
  rw [find?, hashed,
    findM?_of_ok fun cell member =>
      (filed cell member).answers_eq constant labels]
  rfl

/-- What is found for a label in a constant state is the entry of a cell filed under them. -/
theorem find?_isFor
    {entry : Value}
    (filed : ∀ cell ∈ cells, cell.Filed store)
    (constant : store.IsConstant state)
    (labels : label.isLabel = true)
    (found : find? store cells state label = .ok (some entry)) :
    ∃ cell ∈ cells, cell.entry = entry ∧ cell.isFor store state label = true := by
  rw [find?_of_filed filed constant labels, Except.ok.injEq] at found
  obtain ⟨cell, first, same⟩ := Option.map_eq_some_iff.mp found
  exact ⟨cell, List.mem_of_find?_eq_some first, same, List.find?_some first⟩

theorem Filed.transfer
    (filed : cell.Filed store)
    (keeps : store.Keeps other) :
    cell.Filed other :=
  ⟨keeps.isConstant filed.state, fun mention =>
    keeps.isConstant (filed.column mention)⟩

/-- A cell is for the same questions as long as tuples are kept. -/
theorem Filed.isFor_of_keeps
    (filed : cell.Filed store)
    (keeps : store.Keeps other)
    (constant : store.IsConstant state)
    (labels : label.isLabel = true) :
    cell.isFor other state label = cell.isFor store state label := by
  have column :
      (other.reading cell.column).equals label =
        (store.reading cell.column).equals label := by
    cases mention : cell.column.isMention with
    | true => rw [keeps.reading (filed.column mention)]
    | false =>
        rw [other.reading_equals_label mention labels,
          store.reading_equals_label mention labels]
  rw [isFor, isFor, keeps.reading constant, keeps.reading filed.state, column]

end Cell

namespace Table

variable
  {table : Table}
  {first second : Store}

/-- A table whose states are constants, and which is filed under constants. -/
structure ConstantStates
    (table : Table)
    (store : Store) :
    Prop where
  states : ∀ state, table.HasState state → store.IsConstant state
  cells : ∀ cell ∈ table.actions ++ table.gotos, cell.Filed store

namespace ConstantStates

/-- The states of a table stay constants as long as tuples are kept. -/
theorem transfer
    (constants : table.ConstantStates first)
    (keeps : first.Keeps second) :
    table.ConstantStates second where
  states := fun state known => keeps.isConstant (constants.states state known)
  cells := fun cell member => (constants.cells cell member).transfer keeps

/-- An action is the entry of a cell filed under equals, or the error action. -/
theorem action_isFor
    {store : Store}
    (constants : table.ConstantStates store)
    {state entry : Value}
    {kind : String}
    (constant : store.IsConstant state)
    (answered : table.action store state (.text kind) = .ok entry) :
    entry = .action (.error .direct) ∨
      ∃ cell ∈ table.actions,
        cell.entry = entry ∧ cell.isFor store state (.text kind) = true := by
  have filed : ∀ cell ∈ table.actions, cell.Filed store := fun cell member =>
    constants.cells cell (List.mem_append_left _ member)
  rw [action] at answered
  cases found : Cell.find? store table.actions state (.text kind) with
  | error cause =>
      rw [found] at answered
      cases answered
  | ok held =>
      rw [found] at answered
      cases held with
      | none =>
          cases answered
          exact .inl rfl
      | some action =>
          cases answered
          exact .inr (Cell.find?_isFor filed constant rfl found)

/-- A goto is the entry of a cell filed under equals, or no value. -/
theorem goto_isFor
    {store : Store}
    (constants : table.ConstantStates store)
    {state next : Value}
    {head : NonTerminal}
    (constant : store.IsConstant state)
    (answered : table.goto store state (.nonterminal head) = .ok next) :
    next = .none ∨
      ∃ cell ∈ table.gotos,
        cell.entry = next ∧ cell.isFor store state (.nonterminal head) = true := by
  have filed : ∀ cell ∈ table.gotos, cell.Filed store := fun cell member =>
    constants.cells cell (List.mem_append_right _ member)
  rw [goto] at answered
  cases found : Cell.find? store table.gotos state (.nonterminal head) with
  | error cause =>
      rw [found] at answered
      cases answered
  | ok held =>
      rw [found] at answered
      cases held with
      | none =>
          cases answered
          exact .inl rfl
      | some next =>
          cases answered
          exact .inr (Cell.find?_isFor filed constant rfl found)

/-- What is found in cells of a table stays as long as tuples are kept. -/
theorem sameFound
    (constants : table.ConstantStates first)
    (keeps : first.Keeps second)
    {cells : List Cell}
    (inTable : cells ⊆ table.actions ++ table.gotos)
    {state label : Value}
    (constant : first.IsConstant state)
    (labels : label.isLabel = true) :
    Cell.find? second cells state label = Cell.find? first cells state label := by
  have filed : ∀ cell ∈ cells, cell.Filed first :=
    fun cell member => constants.cells cell (inTable member)
  rw [Cell.find?_of_filed filed constant labels,
    Cell.find?_of_filed (fun cell member => (filed cell member).transfer keeps)
      (keeps.isConstant constant) labels,
    List.find?_congr fun cell member =>
      (filed cell member).isFor_of_keeps keeps constant labels]

/-- A table with constant states answers as long as tuples are kept. -/
theorem sameAnswers
    (constants : table.ConstantStates first)
    (keeps : first.Keeps second) :
    table.SameAnswers first second := by
  intro state known
  have constant := constants.states state known
  have actions : table.actions ⊆ table.actions ++ table.gotos :=
    List.subset_append_left _ _
  have gotos : table.gotos ⊆ table.actions ++ table.gotos :=
    List.subset_append_right _ _
  refine ⟨fun kind => ?_, fun head => ?_⟩
  · rw [action, action, constants.sameFound keeps actions constant rfl]
  · rw [goto, goto, constants.sameFound keeps gotos constant rfl]

end ConstantStates

theorem Orderly.isConstant_of_hasState
    (orderly : table.Orderly)
    {state : Value}
    (known : table.HasState state) :
    state.isConstant = true := by
  cases known with
  | initial => exact orderly.initial
  | @shifted cell _ member entry =>
      have proper := (orderly.actions cell member).2.2
      rw [entry] at proper
      exact proper
  | gone member => exact (orderly.gotos _ member).2

theorem Orderly.constantStates
    (orderly : table.Orderly)
    (store : Store) :
    table.ConstantStates store where
  states := fun _ known =>
    store.isConstant_of_constant (orderly.isConstant_of_hasState known)
  cells := by
    have filed :
        ∀ {cell : Cell},
          cell.state.isConstant = true →
            cell.column.isConstant = true →
              cell.Filed store :=
      fun state column =>
        ⟨store.isConstant_of_constant state, fun _ =>
          store.isConstant_of_constant column⟩
    intro cell member
    rcases List.mem_append.mp member with action | goto
    · obtain ⟨state, text, _⟩ := orderly.actions cell action
      exact filed state (Value.isConstant_label (Value.isLabel_of_isText text))
    · obtain ⟨state, column⟩ :=
        Bool.and_eq_true_iff.mp (orderly.gotos cell goto).1
      exact filed state column

end Table

end ShiftReduce
