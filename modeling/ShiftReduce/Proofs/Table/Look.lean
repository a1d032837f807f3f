import ShiftReduce.Proofs.Table.Orderly
import ShiftReduce.Proofs.Table.Path

namespace ShiftReduce

/-!
# What a table looks like

Tables and tokens may mention containers that lie in a store.  A run consults the table
about its states, and shows its states, entries and rules in the faults that it comes to.
All of this is what a table looks like in a store, and as long as a table looks the same
in two stores (`Table.SameLook`), a run cannot tell them apart.

Faults are compared as they show when they arise (`Store.report`).
-/

/-- An answer, or its fault as it shows when it arises. -/
def Store.report
    {α : Type}
    (store : Store)
    (answer : Except Fault α) :
    Except Fault α :=
  answer.mapError store.settle

namespace Store

variable
  {α : Type}
  {first second : Store}

@[simp]
theorem report_ok
    (store : Store)
    (result : α) :
    store.report (.ok result) = .ok result :=
  rfl

@[simp]
theorem report_error
    (store : Store)
    (cause : Fault) :
    store.report (.error cause : Except Fault α) =
      .error (store.settle cause) :=
  rfl

/-- Answers that are reported alike are the same result, or faults that show alike. -/
theorem report_cases
    {answer other : Except Fault α}
    (same : second.report other = first.report answer) :
    (∃ result, answer = .ok result ∧ other = .ok result) ∨
      ∃ cause otherCause,
        answer = .error cause ∧
          other = .error otherCause ∧
          second.settle otherCause = first.settle cause := by
  cases answer with
  | ok result =>
      cases other with
      | ok otherResult =>
          cases same
          exact .inl ⟨result, rfl, rfl⟩
      | error otherCause => cases same
  | error cause =>
      cases other with
      | ok otherResult => cases same
      | error otherCause =>
          exact .inr ⟨cause, otherCause, rfl, rfl, Except.error.inj same⟩

/-- Faults over things that look the same show alike. -/
theorem settle_eq_of_resolveFault
    {cause otherCause : Fault}
    (same : second.resolveFault otherCause = first.resolveFault cause) :
    second.settle otherCause = first.settle cause := by
  simp only [settle, same]

/-- Defects over things that look the same show alike. -/
theorem settle_eq_of_resolveDefect
    {defect otherDefect : Defect}
    (same : second.resolveDefect otherDefect = first.resolveDefect defect) :
    second.settle (.malformedTable otherDefect) =
      first.settle (.malformedTable defect) :=
  settle_eq_of_resolveFault (congrArg Fault.malformedTable same)

end Store

namespace Table

/-- The kinds that a table lists for a state, as they look in a store. -/
def shownKinds
    (table : Table)
    (store : Store)
    (state : Value) :
    Except Fault (List Value) :=
  (table.diagnose store state).map (List.map store.resolve)

/-- A table looks the same in two stores, wherever a run may look at it. -/
structure SameLook
    (table : Table)
    (first second : Store) :
    Prop where
  actions :
    ∀ state,
      table.HasState state →
        ∀ kind : String,
          second.report (table.action second state (.text kind)) =
            first.report (table.action first state (.text kind))
  gotos :
    ∀ state,
      table.HasState state →
        ∀ head : NonTerminal,
          second.report (table.goto second state (.nonterminal head)) =
            first.report (table.goto first state (.nonterminal head))
  kinds :
    ∀ state,
      table.HasState state →
        second.report (table.shownKinds second state) =
          first.report (table.shownKinds first state)
  states :
    ∀ state,
      table.HasState state → second.resolve state = first.resolve state
  entries :
    ∀ cell ∈ table.actions,
      second.resolve cell.entry = first.resolve cell.entry
  rules :
    ∀ cell ∈ table.actions,
      ∀ production,
        cell.entry = .action (.reduce .direct (.production production)) →
          second.resolveProduction production =
            first.resolveProduction production
  reductions :
    ∀ cell ∈ table.actions,
      ∀ value,
        cell.entry = .action (.reduce .direct value) →
          second.length? value = first.length? value ∧
            second.plain value = first.plain value

namespace SameLook

variable
  {table : Table}
  {first second third : Store}

theorem refl
    (table : Table)
    (store : Store) :
    table.SameLook store store where
  actions _ _ _ := rfl
  gotos _ _ _ := rfl
  kinds _ _ := rfl
  states _ _ := rfl
  entries _ _ := rfl
  rules _ _ _ _ := rfl
  reductions _ _ _ _ := ⟨rfl, rfl⟩

theorem symm
    (same : table.SameLook first second) :
    table.SameLook second first where
  actions state known kind := (same.actions state known kind).symm
  gotos state known head := (same.gotos state known head).symm
  kinds state known := (same.kinds state known).symm
  states state known := (same.states state known).symm
  entries cell member := (same.entries cell member).symm
  rules cell member production reduces :=
    (same.rules cell member production reduces).symm
  reductions cell member value reduces :=
    have ⟨length, plain⟩ := same.reductions cell member value reduces
    ⟨length.symm, plain.symm⟩

theorem trans
    (before : table.SameLook first second)
    (after : table.SameLook second third) :
    table.SameLook first third where
  actions state known kind :=
    (after.actions state known kind).trans (before.actions state known kind)
  gotos state known head :=
    (after.gotos state known head).trans (before.gotos state known head)
  kinds state known := (after.kinds state known).trans (before.kinds state known)
  states state known :=
    (after.states state known).trans (before.states state known)
  entries cell member :=
    (after.entries cell member).trans (before.entries cell member)
  rules cell member production reduces :=
    (after.rules cell member production reduces).trans
      (before.rules cell member production reduces)
  reductions cell member value reduces :=
    have ⟨length, plain⟩ := before.reductions cell member value reduces
    have ⟨lengthAfter, plainAfter⟩ :=
      after.reductions cell member value reduces
    ⟨lengthAfter.trans length, plainAfter.trans plain⟩

/-- Whatever a table answers with looks the same. -/
theorem answer
    (same : table.SameLook first second)
    {store : Store}
    {state column entry : Value}
    (found : table.action store state column = .ok entry) :
    second.resolve entry = first.resolve entry := by
  rcases action_mem found with missing | ⟨cell, member, rfl⟩
  · subst missing
    rw [Store.resolve, Store.resolve, Store.levels, Store.levels,
      Nat.succ_mul, Nat.succ_mul]
    rfl
  · exact same.entries cell member

/-- Every rule that a table answers with looks the same. -/
theorem rule
    (same : table.SameLook first second)
    {store : Store}
    {state column : Value}
    {production : Production}
    (found :
      table.action store state column =
        .ok (.action (.reduce .direct (.production production)))) :
    second.resolveProduction production =
      first.resolveProduction production := by
  rcases action_mem found with missing | ⟨cell, member, entry⟩
  · simp at missing
  · exact same.rules cell member production entry

/-- Whatever else a table says to reduce by has the same length and wording. -/
theorem reduction
    (same : table.SameLook first second)
    {store : Store}
    {state column value : Value}
    (found :
      table.action store state column =
        .ok (.action (.reduce .direct value))) :
    second.length? value = first.length? value ∧
      second.plain value = first.plain value := by
  rcases action_mem found with missing | ⟨cell, member, entry⟩
  · simp at missing
  · exact same.reductions cell member value entry

end SameLook

/-- The columns that make a state expect them are the same in all stores, for constants. -/
theorem expectedColumns_eq
    (first second : Store)
    {state : Value}
    (constant : state.isConstant = true)
    {cells : List Cell}
    (constants : ∀ cell ∈ cells, cell.state.isConstant = true) :
    expectedColumns second state cells = expectedColumns first state cells := by
  induction cells with
  | nil => rfl
  | cons cell rest inductionHypothesis =>
      have cellConstant := constants cell List.mem_cons_self
      have others :=
        inductionHypothesis fun other member =>
          constants other (List.mem_cons_of_mem cell member)
      simp only [expectedColumns, others,
        first.same_constant cellConstant constant,
        second.same_constant cellConstant constant]

namespace Orderly

variable {table : Table}

theorem hasState_constant
    {state : Value}
    (orderly : table.Orderly)
    (known : table.HasState state) :
    state.isConstant = true := by
  cases known with
  | initial => exact orderly.initial
  | shifted member entry =>
      have proper := (orderly.actions _ member).2.2
      rw [entry] at proper
      exact proper
  | gone member => exact (orderly.gotos _ member).2

/-- The kinds that an orderly table lists are texts, the same ones in all stores. -/
theorem shownKinds_eq
    {state : Value}
    (orderly : table.Orderly)
    (first second : Store)
    (constant : state.isConstant = true) :
    table.shownKinds second state = table.shownKinds first state := by
  obtain ⟨columns, computed, texts⟩ :=
    expectedColumns_texts first constant fun cell member =>
      ⟨(orderly.actions cell member).1, (orderly.actions cell member).2.1⟩
  have same :=
    expectedColumns_eq first second constant fun cell member =>
      (orderly.actions cell member).1
  have unchanged (store : Store) :
      (columns.mergeSort Value.notAfter).map store.resolve =
        columns.mergeSort Value.notAfter := by
    conv => rhs; rw [← List.map_id (columns.mergeSort Value.notAfter)]
    apply List.map_congr_left
    intro column member
    have isText :=
      List.all_eq_true.mp texts column (List.mem_mergeSort.mp member)
    cases column with
    | text content => exact store.resolve_constant rfl
    | _ => cases isText
  simp only [shownKinds, diagnose, orderly.diagnosis, expectedKinds, same,
    computed, bind, Except.bind, Store.sorted, texts, if_true, Except.map,
    unchanged]

/-- An orderly table with nothing in its entries that lies in a store looks always the same. -/
theorem sameLook
    (orderly : table.Orderly)
    (closed :
      ∀ cell ∈ table.actions, ∀ fill, cell.entry.expand fill = cell.entry)
    (first second : Store) :
    table.SameLook first second where
  actions state known kind := by
    have constant := orderly.hasState_constant known
    rw [orderly.action_eq first constant, orderly.action_eq second constant]
    rfl
  gotos state known head := by
    have constant := orderly.hasState_constant known
    have headConstant : (Value.nonterminal head).isConstant = true := rfl
    rw [orderly.goto_eq first constant headConstant,
      orderly.goto_eq second constant headConstant]
    rfl
  kinds state known := by
    have constant := orderly.hasState_constant known
    rw [orderly.shownKinds_eq first second constant]
    obtain ⟨expected, diagnosed⟩ := orderly.diagnose_ok first constant
    simp only [shownKinds, diagnosed, Except.map, Store.report_ok]
  states state known := by
    have constant := orderly.hasState_constant known
    rw [first.resolve_constant constant, second.resolve_constant constant]
  entries cell member := by
    rw [first.resolve_of_closed (closed cell member),
      second.resolve_of_closed (closed cell member)]
  rules cell member production reduces := by
    have unchanged (fill : Filling) : production.expand fill = production := by
      have same := closed cell member fill
      rw [reduces] at same
      simpa [Value.expand, Action.expand] using same
    rw [Store.resolveProduction, Store.resolveProduction, unchanged, unchanged]
  reductions cell member value reduces := by
    have proper := (orderly.actions cell member).2.2
    rw [reduces] at proper
    cases value with
    | production production =>
        have unchanged (fill : Filling) :
            (Value.production production).expand fill = .production production := by
          have same := closed cell member fill
          rw [reduces] at same
          simpa [Value.expand, Action.expand] using same
        rw [Store.plain, Store.plain, first.resolve_of_closed unchanged,
          second.resolve_of_closed unchanged]
        exact ⟨rfl, rfl⟩
    | _ => cases proper

end Orderly

end Table

end ShiftReduce
