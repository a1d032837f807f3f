import ShiftReduce.Proofs.Run.Diagnosis
import ShiftReduce.Proofs.Run.Noninterference

namespace ShiftReduce

/-!
# What a parser complains about

A table is steadfast if it has constants for states, texts for kinds and actions for entries,
and computes what it expects (`Table.Steadfast`).  Such a table has an answer to everything
that a parser asks of it, and all of it can be shown, as long as tuples are kept.

So a parser on a path through a steadfast table either comes to a decision or complains
about the token or about the table (`Parser.decision_complains`).  It never fails in any
other way.
-/

/-- An entry is an action to a state that suits, by a proper rule, or with nothing to it. -/
def Value.IsActionTo
    (suits : Value → Prop) :
    Value → Prop
  | .action (.shift _ next) => suits next
  | .action (.reduce _ (.production rule)) => rule.isProper = true
  | .action (.reduce _ _) => False
  | .action _ => True
  | _ => False

theorem Value.IsActionTo.mono
    {suits fits : Value → Prop}
    {value : Value}
    (action : value.IsActionTo suits)
    (weaker : ∀ next, suits next → fits next) :
    value.IsActionTo fits := by
  cases value with
  | action carried =>
      cases carried with
      | shift lineage next => exact weaker next action
      | reduce lineage rule =>
          cases rule with
          | production production => exact action
          | _ => cases action
      | _ => trivial
  | _ => cases action

namespace Store

variable
  {store other : Store}
  {value : Value}

/-- Constants are plain data. -/
theorem IsConstant.isPlain
    (constant : store.IsConstant value) :
    store.IsPlain value := by
  rw [IsPlain, resolve_eq_reading constant]
  exact Value.isPlain_of_constant (reading_isConstant constant)

theorem presents_iff :
    store.Presents value ↔ value.IsActionTo store.IsPlain :=
  Iff.rfl

/-- An entry is an action to a constant state, by a proper rule, or with nothing to it. -/
def IsFirm
    (store : Store)
    (value : Value) :
    Prop :=
  value.IsActionTo store.IsConstant

namespace IsFirm

theorem presents
    (firm : store.IsFirm value) :
    store.Presents value :=
  presents_iff.mpr (Value.IsActionTo.mono firm fun _ => IsConstant.isPlain)

theorem exists_action
    (firm : store.IsFirm value) :
    ∃ carried, value = .action carried := by
  cases value with
  | action carried => exact ⟨carried, rfl⟩
  | _ => cases firm

theorem shown
    (firm : store.IsFirm value) :
    ∃ text, (store.resolve value).shown = .ok text := by
  obtain ⟨carried, rfl⟩ := firm.exists_action
  exact firm.presents.shown

/-- What is firm stays so as long as tuples are kept. -/
theorem transfer
    (firm : store.IsFirm value)
    (keeps : store.Keeps other) :
    other.IsFirm value :=
  Value.IsActionTo.mono firm fun _ => keeps.isConstant

end IsFirm

end Store

namespace Table

/--
A table with constants for states, texts for kinds and firm actions for entries, which
computes what it expects.
-/
structure Steadfast
    (table : Table)
    (store : Store) :
    Prop where
  initial : store.IsConstant table.initial
  actions :
    ∀ cell ∈ table.actions,
      store.IsConstant cell.state ∧
        cell.column.isText = true ∧
        store.IsFirm cell.entry
  gotos :
    ∀ cell ∈ table.gotos,
      cell.Filed store ∧ store.IsConstant cell.entry
  computed : table.diagnosis = .computed

/-- An orderly table is steadfast, whatever lies in the store. -/
theorem Orderly.steadfast
    {table : Table}
    (orderly : table.Orderly)
    (store : Store) :
    table.Steadfast store where
  initial := store.isConstant_of_constant orderly.initial
  actions := by
    intro cell member
    obtain ⟨state, column, proper⟩ := orderly.actions cell member
    refine ⟨store.isConstant_of_constant state, column, ?_⟩
    cases entry : cell.entry with
    | action carried =>
        rw [entry] at proper
        cases carried with
        | shift lineage next =>
            have constant : next.isConstant = true := proper
            exact store.isConstant_of_constant constant
        | reduce lineage rule =>
            cases rule with
            | production production => exact proper
            | _ => cases proper
        | _ => trivial
    | _ =>
        rw [entry] at proper
        cases proper
  gotos := by
    intro cell member
    refine
      ⟨(orderly.constantStates store).cells cell
          (List.mem_append_right table.actions member), ?_⟩
    exact store.isConstant_of_constant (orderly.gotos cell member).2
  computed := orderly.diagnosis

namespace Steadfast

variable
  {table : Table}
  {store other : Store}
  {state : Value}

/-- A table stays steadfast as long as tuples are kept. -/
theorem transfer
    (steadfast : table.Steadfast store)
    (keeps : store.Keeps other) :
    table.Steadfast other where
  initial := keeps.isConstant steadfast.initial
  actions := by
    intro cell member
    obtain ⟨constant, text, firm⟩ := steadfast.actions cell member
    exact ⟨keeps.isConstant constant, text, firm.transfer keeps⟩
  gotos := by
    intro cell member
    obtain ⟨filed, constant⟩ := steadfast.gotos cell member
    exact ⟨filed.transfer keeps, keeps.isConstant constant⟩
  computed := steadfast.computed

theorem constantStates
    (steadfast : table.Steadfast store) :
    table.ConstantStates store where
  states := by
    intro state known
    cases known with
    | initial => exact steadfast.initial
    | shifted member entry =>
        have firm := (steadfast.actions _ member).2.2
        rw [entry] at firm
        exact firm
    | gone member => exact (steadfast.gotos _ member).2
  cells := by
    intro cell member
    rcases List.mem_append.mp member with action | goto
    · obtain ⟨constant, text, _⟩ := steadfast.actions cell action
      have column := Value.isConstant_label (Value.isLabel_of_isText text)
      exact ⟨constant, fun _ => store.isConstant_of_constant column⟩
    · exact (steadfast.gotos cell goto).1

/-- Everything about a steadfast table can be shown. -/
theorem legible
    (steadfast : table.Steadfast store) :
    table.Legible store where
  entries := fun cell member => (steadfast.actions cell member).2.2.presents
  states := fun state known => (steadfast.constantStates.states state known).isPlain

/-- A steadfast table has a firm action for every constant state and every kind. -/
theorem action_ok
    (steadfast : table.Steadfast store)
    (constant : store.IsConstant state)
    (kind : String) :
    ∃ entry,
      table.action store state (.text kind) = .ok entry ∧ store.IsFirm entry := by
  have filed : ∀ cell ∈ table.actions, cell.Filed store := fun cell member =>
    steadfast.constantStates.cells cell (List.mem_append_left table.gotos member)
  have found :=
    Cell.find?_of_filed filed constant (rfl : (Value.text kind).isLabel = true)
  cases sought : table.actions.find? (Cell.isFor store state (.text kind)) with
  | none =>
      rw [sought] at found
      exact ⟨.action (.error .direct), by rw [action, found]; rfl, trivial⟩
  | some cell =>
      rw [sought] at found
      have member := List.mem_of_find?_eq_some sought
      exact
        ⟨cell.entry, by rw [action, found]; rfl, (steadfast.actions cell member).2.2⟩

/-- A steadfast table has an answer where to go from a constant state. -/
theorem goto_ok
    (steadfast : table.Steadfast store)
    (constant : store.IsConstant state)
    (head : NonTerminal) :
    ∃ next, table.goto store state (.nonterminal head) = .ok next := by
  have filed : ∀ cell ∈ table.gotos, cell.Filed store := fun cell member =>
    (steadfast.gotos cell member).1
  rw [goto,
    Cell.find?_of_filed filed constant
      (rfl : (Value.nonterminal head).isLabel = true)]
  exact ⟨_, rfl⟩

/-- A steadfast table has an answer what it expects in a constant state. -/
theorem diagnose_ok
    (steadfast : table.Steadfast store)
    (constant : store.IsConstant state) :
    ∃ kinds, table.diagnose store state = .ok kinds := by
  have columns :=
    expectedColumns_of_constants (fun cell member => (steadfast.actions cell member).1)
      constant
  have texts :
      ((table.actions.filter (invites store state)).map Cell.column).all
          Value.isText = true := by
    simp only [List.all_map, List.all_eq_true, List.mem_filter]
    exact fun cell member => (steadfast.actions cell member.1).2.1
  rw [diagnose, steadfast.computed]
  dsimp only
  rw [expectedKinds, columns]
  simp only [bind, Except.bind, Store.sorted, texts, if_true]
  exact ⟨_, rfl⟩

end Steadfast

end Table

/-- A complaint of a parser: about the token that comes next, or about an action of the table. -/
inductive Fault.Complains :
    Fault → Prop where
  | unexpectedToken
      {state token : Value}
      {expected : List Value} :
      Complains (.unexpectedToken state token expected)
  | tooDeep
      {production : Production}
      {available : Nat}
      {state : Value} :
      Complains (.malformedTable (.tooDeep production available state))
  | missingGoto
      {head state : Value} :
      Complains (.malformedTable (.missingGoto head state))
  | unknownAction
      {action state : Value} :
      Complains (.malformedTable (.unknownAction action state))

namespace Store

variable
  {store : Store}
  {production : Production}
  {head state action : Value}
  {headText stateText actionText : String}

theorem settle_tooDeep
    (proper : production.isProper = true)
    (available : Nat)
    (state : Value) :
    (store.settle
      (.malformedTable (.tooDeep production available state))).Complains := by
  obtain ⟨text, shows⟩ := Production.shown_expand store.filling proper
  rw [store.settle_of_wording]
  · exact .tooDeep
  · simp only [resolveFault, resolveDefect, resolveProduction, Fault.wording,
      Defect.wording, shows, bind, Except.bind, pure, Except.pure]
    rfl

theorem settle_missingGoto
    (showsHead : (store.resolve head).shown = .ok headText)
    (showsState : (store.resolve state).shown = .ok stateText) :
    (store.settle (.malformedTable (.missingGoto head state))).Complains := by
  rw [store.settle_of_wording]
  · exact .missingGoto
  · simp only [resolveFault, resolveDefect, Fault.wording, Defect.wording,
      showsHead, showsState, bind, Except.bind, pure, Except.pure]
    rfl

theorem settle_unknownAction
    (showsAction : (store.resolve action).shown = .ok actionText)
    (showsState : (store.resolve state).shown = .ok stateText) :
    (store.settle (.malformedTable (.unknownAction action state))).Complains := by
  rw [store.settle_of_wording]
  · exact .unknownAction
  · simp only [resolveFault, resolveDefect, Fault.wording, Defect.wording,
      showsAction, showsState, bind, Except.bind, pure, Except.pure]
    rfl

theorem settle_inputExhausted
    (showsState : (store.resolve state).shown = .ok stateText) :
    store.settle (.malformedTable (.inputExhausted state)) =
      .malformedTable (.inputExhausted (store.resolve state)) := by
  rw [store.settle_of_wording]
  · rfl
  · simp only [resolveFault, resolveDefect, Fault.wording, Defect.wording,
      showsState, bind, Except.bind, pure, Except.pure]
    rfl

end Store

namespace Parser

variable
  {store : Store}
  {table : Table}
  {parser : Parser}
  {selection : Selection}
  {cause : Fault}

/-- A parser on a path through a steadfast table has an action to select for every token. -/
theorem select_ok
    (steadfast : table.Steadfast store)
    (path : table.Path store parser.states parser.symbols)
    (token : Token) :
    ∃ selection,
      parser.select store (.table table) (.token token) = .ok selection ∧
        selection.table = table ∧
        selection.token = .token token ∧
        selection.state ∈ parser.states ∧
        store.IsFirm selection.action := by
  cases stack : parser.states with
  | nil =>
      rw [stack] at path
      cases path
  | cons state below =>
      have constant : store.IsConstant state :=
        steadfast.constantStates.states state
          (path.hasState (by rw [stack]; exact List.mem_cons_self))
      obtain ⟨entry, answered, firm⟩ := steadfast.action_ok constant token.kind
      exact
        ⟨_, select_of_action stack rfl answered, rfl, rfl, List.mem_cons_self, firm⟩

/-- A reduction that cannot be carried out is complained about. -/
theorem nextAfter_complains
    {production : Production}
    (steadfast : table.Steadfast store)
    (path : table.Path store parser.states parser.symbols)
    (ofTable : selection.table = table)
    (proper : production.isProper = true)
    (refused : parser.nextAfter store selection production = .error cause) :
    (store.settle cause).Complains := by
  unfold nextAfter at refused
  split at refused
  · cases refused
    exact Store.settle_tooDeep proper _ _
  · next shallow =>
      have within : production.length < parser.states.length := by
        rw [path.length_eq]
        exact Nat.lt_of_not_le shallow
      have exposes := List.getElem?_eq_getElem within
      have constant : store.IsConstant (parser.states[production.length]) :=
        steadfast.constantStates.states _ (path.hasState (List.getElem_mem within))
      obtain ⟨head, headed⟩ := Production.head_of_isProper proper
      obtain ⟨next, answered⟩ := steadfast.goto_ok constant head
      rw [exposedState, exposes, ofTable, headed] at refused
      simp only [bind, Except.bind, answered] at refused
      split at refused
      · cases refused
        obtain ⟨headText, showsHead⟩ :=
          store.shown_constant (rfl : (Value.nonterminal head).isConstant = true)
        obtain ⟨stateText, showsState⟩ := Value.shown_plain constant.isPlain
        exact Store.settle_missingGoto showsHead showsState
      · cases refused

/-- A token that is refused is complained about. -/
theorem refuseToken_complains
    {token : Token}
    (steadfast : table.Steadfast store)
    (ofTable : selection.table = table)
    (ofToken : selection.token = .token token)
    (plain : store.IsPlain token.value)
    (constant : store.IsConstant selection.state)
    (refused : refuseToken store selection = .error cause) :
    (store.settle cause).Complains := by
  obtain ⟨tokenText, showsToken⟩ := Store.shown_token plain
  obtain ⟨stateText, showsState⟩ := Value.shown_plain constant.isPlain
  obtain ⟨kinds, diagnosed⟩ := steadfast.diagnose_ok constant
  rw [← ofToken] at showsToken
  rw [← ofTable] at diagnosed
  simp only [refuseToken, Fault.refusal, showsToken, showsState, diagnosed,
    Fault.ofRendering, bind, Except.bind, pure, Except.pure] at refused
  cases refused
  rw [Store.settle_refused showsToken showsState]
  exact .unexpectedToken

/--
A parser on a path through a steadfast table that comes to no decision complains about the
token, or about the action that it has selected.
-/
theorem decision_complains
    {token : Token}
    (steadfast : table.Steadfast store)
    (path : table.Path store parser.states parser.symbols)
    (plain : store.IsPlain token.value)
    (ofTable : selection.table = table)
    (ofToken : selection.token = .token token)
    (onStack : selection.state ∈ parser.states)
    (firm : store.IsFirm selection.action)
    (refused : parser.decision store selection = .error cause) :
    (store.settle cause).Complains := by
  have constant : store.IsConstant selection.state :=
    steadfast.constantStates.states _ (path.hasState onStack)
  unfold decision at refused
  split at refused
  · cases refused
  · next production shape =>
      rw [shape] at firm
      cases found : parser.nextAfter store selection production with
      | error fault =>
          rw [found] at refused
          cases refused
          exact nextAfter_complains steadfast path ofTable firm found
      | ok next =>
          rw [found] at refused
          cases refused
  · next rule noRule shape =>
      rw [shape] at firm
      cases rule with
      | production production => exact (noRule production rfl).elim
      | _ => cases firm
  · cases refused
  · exact refuseToken_complains steadfast ofTable ofToken plain constant refused
  · cases refused
    obtain ⟨actionText, showsAction⟩ := firm.shown
    obtain ⟨stateText, showsState⟩ := Value.shown_plain constant.isPlain
    exact Store.settle_unknownAction showsAction showsState

end Parser

end ShiftReduce
