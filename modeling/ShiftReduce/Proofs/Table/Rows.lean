import Mathlib.Algebra.GroupWithZero.Nat
import ShiftReduce.Proofs.Table.Distinct

namespace ShiftReduce

/-!
# Tables made of rows

Rows are a dictionary of dictionaries, and the cells that they consist of are one dictionary
under pairs.  Looking up first the row and then the entry in it (`Row.find?`) comes to the
same as looking up the pair: where states differ from row to row, and columns within each
row, no cell takes the place of another.  So a table that is made of rows says what they say,
and has a cell for each of their entries; and so does any table of the same cells, in
whatever order they are inserted (`Table.ofRows_flattens`).
-/

namespace Row

/-- The entry of rows for a state and a column: first the row is found, then the entry in it. -/
def find?
    (store : Store)
    (rows : List Row)
    (state column : Value) :
    Except Fault (Option Value) := do
  let _ ← store.hashKey state
  let found ← rows.findM? fun row => store.sameKey row.state state
  match found with
  | none => return none
  | some row =>
      let _ ← store.hashKey column
      let entry ← Value.entryOf? store column row.entries
      return entry.map Prod.snd

/-- Rows for constant states that differ, each with labels that differ for columns. -/
structure Distinct
    (store : Store)
    (rows : List Row) :
    Prop where
  constants : ∀ row ∈ rows, store.IsConstant row.state
  states :
    rows.Pairwise fun first second =>
      store.same first.state second.state = .ok false
  labels : ∀ row ∈ rows, ∀ entry ∈ row.entries, entry.1.isLabel = true
  columns :
    ∀ row ∈ rows,
      row.entries.Pairwise fun first second =>
        store.same first.1 second.1 = .ok false

namespace Distinct

variable
  {store : Store}
  {rows : List Row}
  {state label entry : Value}

theorem states_nodup
    (distinct : Distinct store rows) :
    (rows.map fun row => store.key row.state).Nodup :=
  Store.keys_nodup distinct.constants distinct.states

theorem columns_nodup
    (distinct : Distinct store rows)
    {row : Row}
    (member : row ∈ rows) :
    (row.entries.map Prod.fst).Nodup := by
  have constants : ∀ entry ∈ row.entries, store.IsConstant entry.1 :=
    fun entry entryMember =>
      store.isConstant_of_constant
        (Value.isConstant_label (distinct.labels row member entry entryMember))
  have keys : row.entries.map (fun entry => store.key entry.1) =
      row.entries.map Prod.fst :=
    List.map_congr_left fun entry entryMember =>
      store.key_label (distinct.labels row member entry entryMember)
  rw [← keys]
  exact Store.keys_nodup constants (distinct.columns row member)

theorem labelled
    (distinct : Distinct store rows) :
    ∀ cell ∈ rows.flatMap Row.cells, cell.Labelled store := by
  intro cell member
  obtain ⟨row, rowMember, cellMember⟩ := List.mem_flatMap.mp member
  obtain ⟨entry, entryMember, rfl⟩ := List.mem_map.mp cellMember
  exact
    ⟨distinct.constants row rowMember, distinct.labels row rowMember entry entryMember⟩

/-- The cells of rows that differ have keys that differ. -/
theorem cells
    (distinct : Distinct store rows) :
    Cell.Distinct store (rows.flatMap Row.cells) := by
  have keys :
      ∀ row : Row,
        row.cells.map (Cell.key store) =
          (row.entries.map Prod.fst).map (Prod.mk (store.key row.state)) := by
    intro row
    rw [Row.cells, List.map_map, List.map_map]
    rfl
  simp only [Cell.Distinct, List.map_flatMap, keys, List.nodup_flatMap]
  refine ⟨?_, ?_⟩
  · -- Within a row the columns differ.
    intro row member
    exact
      (distinct.columns_nodup member).map fun first second same =>
        congrArg Prod.snd same
  · -- From row to row the states differ.
    refine (List.pairwise_map.mp distinct.states_nodup).imp ?_
    intro first second differ pair inFirst inSecond
    obtain ⟨column, _, rfl⟩ := List.mem_map.mp inFirst
    obtain ⟨other, _, same⟩ := List.mem_map.mp inSecond
    exact differ (congrArg Prod.fst same).symm

section LookUp

variable
  (distinct : Distinct store rows)
  (constant : store.IsConstant state)
  (labels : label.isLabel = true)

include distinct constant labels

/-- Looking up a row, and then an entry in it, leads to a verdict. -/
theorem find?_eq :
    Row.find? store rows state label =
      .ok
        ((rows.find? fun row =>
            (store.reading row.state).equals (store.reading state)).bind fun row =>
          (row.entries.find? fun entry => entry.1.equals label).map Prod.snd) := by
  have labelConstant := Value.isConstant_label labels
  obtain ⟨hash, hashed⟩ := Store.hashKey_of_constant constant
  obtain ⟨labelHash, labelHashed⟩ :=
    Store.hashKey_of_constant (store.isConstant_of_constant labelConstant)
  have rowFound :=
    findM?_of_ok fun row member =>
      (Store.sameKey_of_constants (distinct.constants row member) constant).trans
        (Store.same_of_constants (distinct.constants row member) constant)
  rw [Row.find?, hashed, rowFound]
  simp only [bind, Except.bind]
  cases found :
      rows.find? fun row =>
        (store.reading row.state).equals (store.reading state) with
  | none => rfl
  | some row =>
      have member := List.mem_of_find?_eq_some found
      have entryFound :
          Value.entryOf? store label row.entries =
            .ok (row.entries.find? fun entry => entry.1.equals label) :=
        findM?_of_ok fun entry entryMember =>
          store.sameKey_constant
            (Value.isConstant_label
              (distinct.labels row member entry entryMember))
            labelConstant
      simp only [labelHashed, entryFound]
      rfl

/-- What is found is what the one row for the state has in the one entry for the label. -/
theorem find?_eq_some_iff :
    Row.find? store rows state label = .ok (some entry) ↔
      ∃ row ∈ rows,
        store.key row.state = store.key state ∧ (label, entry) ∈ row.entries := by
  have rowFound :
      ∀ {row},
        (rows.find? fun row =>
            (store.reading row.state).equals (store.reading state)) = some row ↔
          row ∈ rows ∧ store.key row.state = store.key state :=
    find?_eq_some_iff_of_nodup distinct.states_nodup fun row member =>
      Store.equals_iff_key (distinct.constants row member) constant
  have entryFound :
      ∀ {row}, row ∈ rows → ∀ {found},
        row.entries.find? (fun entry => entry.1.equals label) = some found ↔
          found ∈ row.entries ∧ found.1 = label :=
    fun {row} member =>
      find?_eq_some_iff_of_nodup (distinct.columns_nodup member)
        fun entry entryMember =>
          Value.equals_label_iff (distinct.labels row member entry entryMember)
            labels
  simp only [distinct.find?_eq constant labels, Except.ok.injEq,
    Option.bind_eq_some_iff, Option.map_eq_some_iff, rowFound]
  constructor
  · rintro ⟨row, ⟨member, keyed⟩, ⟨column, held⟩, found, rfl⟩
    obtain ⟨entryMember, rfl⟩ := (entryFound member).mp found
    exact ⟨row, member, keyed, entryMember⟩
  · rintro ⟨row, member, keyed, entryMember⟩
    exact
      ⟨row, ⟨member, keyed⟩, (label, entry),
        (entryFound member).mpr ⟨entryMember, rfl⟩, rfl⟩

/-- Rows say what their cells say. -/
theorem find?_cells :
    Row.find? store rows state label =
      Cell.find? store (rows.flatMap Row.cells) state label := by
  refine
    found_ext (distinct.find?_eq constant labels)
      (Cell.find?_of_labelled distinct.labelled constant labels) fun entry => ?_
  rw [distinct.find?_eq_some_iff constant labels,
    Cell.find?_eq_some_iff distinct.labelled distinct.cells constant labels]
  simp only [List.mem_flatMap, Row.cells, List.mem_map]
  constructor
  · rintro ⟨row, member, keyed, entryMember⟩
    exact
      ⟨⟨row.state, label, entry⟩, ⟨row, member, (label, entry), entryMember, rfl⟩,
        congrArg (Prod.mk · label) keyed, rfl⟩
  · rintro ⟨_, ⟨row, member, ⟨column, held⟩, entryMember, rfl⟩, keyed, rfl⟩
    obtain ⟨sameState, rfl⟩ := Prod.mk.inj keyed
    exact ⟨row, member, sameState, entryMember⟩

end LookUp

/-- The cells of rows that differ are inserted one behind the other, in whatever order. -/
theorem insertAll
    (distinct : Distinct store rows)
    {cells : List Cell}
    (perm : cells.Perm (rows.flatMap Row.cells)) :
    Cell.insertAll store [] cells = .ok cells :=
  Cell.insertAll_of_distinct
    (fun cell member => distinct.labelled cell (perm.mem_iff.mp member))
    ((perm.map (Cell.key store)).nodup_iff.mpr distinct.cells)

/-- A label is found in the cells of rows, in whatever order, just as it is in the rows. -/
theorem find?_of_perm
    (distinct : Distinct store rows)
    {cells : List Cell}
    (perm : cells.Perm (rows.flatMap Row.cells))
    (constant : store.IsConstant state)
    (labels : label.isLabel = true) :
    Cell.find? store cells state label = Row.find? store rows state label :=
  (Cell.find?_of_perm distinct.labelled distinct.cells constant labels perm).trans
    (distinct.find?_cells constant labels).symm

end Distinct

end Row

namespace Table

/--
A table that is made of rows answers what the rows say, has a cell for each of their entries,
and answers what any table of the same cells does, whatever the order of their insertion.
-/
theorem ofRows_flattens
    {store : Store}
    {actionRows gotoRows : List Row}
    (actionsDiffer : Row.Distinct store actionRows)
    (gotosDiffer : Row.Distinct store gotoRows)
    (identity : Nat)
    (initial : Value) :
    ∃ table,
      ofRows store identity actionRows gotoRows initial = .ok table ∧
        table.initial = initial ∧
        table.actions.length =
          (actionRows.map fun row => row.entries.length).sum ∧
        table.gotos.length =
          (gotoRows.map fun row => row.entries.length).sum ∧
        (∀ state,
          store.IsConstant state →
            (∀ kind : String,
              ∃ found,
                Row.find? store actionRows state (.text kind) = .ok found ∧
                  table.action store state (.text kind) =
                    .ok (found.getD (.action (.error .direct)))) ∧
            ∀ head : NonTerminal,
              ∃ found,
                Row.find? store gotoRows state (.nonterminal head) = .ok found ∧
                  table.goto store state (.nonterminal head) =
                    .ok (found.getD .none)) ∧
        ∀ actions gotos otherIdentity,
          actions.Perm (actionRows.flatMap Row.cells) →
            gotos.Perm (gotoRows.flatMap Row.cells) →
              ∃ other,
                build store otherIdentity actions gotos initial .computed =
                    .ok other ∧
                  ∀ state,
                    store.IsConstant state →
                      (∀ kind : String,
                        other.action store state (.text kind) =
                          table.action store state (.text kind)) ∧
                      ∀ head : NonTerminal,
                        other.goto store state (.nonterminal head) =
                          table.goto store state (.nonterminal head) := by
  have built :
      ∀ {actions gotos : List Cell} otherIdentity,
        actions.Perm (actionRows.flatMap Row.cells) →
          gotos.Perm (gotoRows.flatMap Row.cells) →
            build store otherIdentity actions gotos initial .computed =
              .ok ⟨otherIdentity, actions, gotos, initial, .computed⟩ := by
    intro actions gotos otherIdentity permActions permGotos
    rw [build, actionsDiffer.insertAll permActions, gotosDiffer.insertAll permGotos]
    rfl
  refine ⟨_, built identity (.refl _) (.refl _), rfl, ?_, ?_, ?_, ?_⟩
  · rw [List.length_flatMap]
    simp [Row.cells]
  · rw [List.length_flatMap]
    simp [Row.cells]
  · intro state constant
    refine ⟨fun kind => ⟨_, actionsDiffer.find?_eq constant rfl, ?_⟩,
      fun head => ⟨_, gotosDiffer.find?_eq constant rfl, ?_⟩⟩
    · rw [action, actionsDiffer.find?_of_perm (.refl _) constant rfl,
        actionsDiffer.find?_eq constant rfl]
      rfl
    · rw [goto, gotosDiffer.find?_of_perm (.refl _) constant rfl,
        gotosDiffer.find?_eq constant rfl]
      rfl
  · intro actions gotos otherIdentity permActions permGotos
    refine ⟨_, built otherIdentity permActions permGotos, fun state constant => ?_⟩
    refine ⟨fun kind => ?_, fun head => ?_⟩
    · rw [action, action, actionsDiffer.find?_of_perm permActions constant rfl,
        actionsDiffer.find?_of_perm (.refl _) constant rfl]
    · rw [goto, goto, gotosDiffer.find?_of_perm permGotos constant rfl,
        gotosDiffer.find?_of_perm (.refl _) constant rfl]

/-- A store with two tuples that are equal, though not the same. -/
def twins : Store :=
  ⟨#[.tuple [.bool true, .text "a"], .tuple [.int 1, .text "a"]]⟩

/-- Rows of actions for a tuple and for a number. -/
def twinActions : List Row :=
  [⟨.shared .tuple 0, [(.text "x", .action (.accept .direct))]⟩,
    ⟨.int 1,
      [(.text "x", .action (.error (.derived ⟨0, "SubError", Option.none⟩))),
        (.text "y", .action (.shift .direct (.shared .tuple 0)))]⟩]

/-- A row of gotos for a truth value. -/
def twinGotos : List Row :=
  [⟨.bool true, [(.nonterminal ⟨"S"⟩, .shared .tuple 1)]⟩]

theorem twinActions_distinct :
    Row.Distinct twins twinActions where
  constants := by decide
  states := List.pairwise_pair.mpr rfl
  labels := by decide
  columns :=
    List.forall_mem_cons.mpr
      ⟨List.pairwise_singleton _ _,
        List.forall_mem_singleton.mpr (List.pairwise_pair.mpr rfl)⟩

theorem twinGotos_distinct :
    Row.Distinct twins twinGotos where
  constants := by decide
  states := List.pairwise_singleton _ _
  labels := by decide
  columns := List.forall_mem_singleton.mpr (List.pairwise_singleton _ _)

/-- Rows are found by equals of their states: a truth value is a number, also inside a tuple. -/
theorem ofRows_finds_equals :
    ∃ table,
      ofRows twins 0 twinActions twinGotos (.int 1) = .ok table ∧
        table.actions.length = 3 ∧
        table.action twins (.shared .tuple 1) (.text "x") =
          .ok (.action (.accept .direct)) ∧
        table.action twins (.bool true) (.text "y") =
          .ok (.action (.shift .direct (.shared .tuple 0))) ∧
        table.goto twins (.int 1) (.nonterminal ⟨"S"⟩) =
          .ok (.shared .tuple 1) := by
  obtain ⟨table, made, _, actionCount, _, answers, _⟩ :=
    ofRows_flattens twinActions_distinct twinGotos_distinct 0 (.int 1)
  obtain ⟨_, inRows, onTuple⟩ := (answers (.shared .tuple 1) rfl).1 "x"
  obtain ⟨_, shiftInRows, onTruth⟩ := (answers (.bool true) rfl).1 "y"
  obtain ⟨_, goneInRows, onNumber⟩ := (answers (.int 1) rfl).2 ⟨"S"⟩
  cases inRows
  cases shiftInRows
  cases goneInRows
  exact ⟨table, made, actionCount, onTuple, onTruth, onNumber⟩

end Table

end ShiftReduce
