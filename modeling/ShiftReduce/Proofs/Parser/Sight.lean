import ShiftReduce.Proofs.Parser.Parse
import ShiftReduce.Proofs.Run.Verdict

namespace ShiftReduce

/-!
# What a parse sees of a store

A parse sees its table, the states of the table and its tokens.  As long as all of these
look the same in two stores (`Table.SameSight`), it selects the same actions there, comes
to the same decisions, and shows the same faults and the same stacks.
-/

namespace Store

/-- A value looks the same in two stores: as a whole, in the gap of a text, and as a part. -/
structure SameIn
    (first second : Store)
    (value : Value) :
    Prop where
  whole : second.resolve value = first.resolve value
  inGap : second.resolveInGap value = first.resolveInGap value
  part : value.expand second.filling = value.expand first.filling

namespace SameIn

variable
  {first second third : Store}
  {value : Value}

theorem refl
    (store : Store)
    (value : Value) :
    store.SameIn store value :=
  ⟨rfl, rfl, rfl⟩

theorem symm
    (same : first.SameIn second value) :
    second.SameIn first value :=
  ⟨same.whole.symm, same.inGap.symm, same.part.symm⟩

theorem trans
    (before : first.SameIn second value)
    (after : second.SameIn third value) :
    first.SameIn third value :=
  ⟨after.whole.trans before.whole, after.inGap.trans before.inGap,
    after.part.trans before.part⟩

end SameIn

end Store

/-- The error action looks the same everywhere. -/
theorem Store.SameIn.errorAction
    (first second : Store) :
    first.SameIn second (.action (.error .direct)) := by
  have whole (store : Store) :
      store.resolve (.action (.error .direct)) = .action (.error .direct) :=
    store.resolve_of_closed fun _ => rfl
  have same := (whole second).trans (whole first).symm
  exact ⟨same, same, rfl⟩

namespace Table

/--
Neither a table and its states nor the values that are held can be told apart in two
stores: they look the same, and all look-ups are answered alike.
-/
structure SameSight
    (table : Table)
    (held : Value → Prop)
    (first second : Store) :
    Prop where
  actions :
    ∀ state kind,
      second.report (table.action second state kind) =
        first.report (table.action first state kind)
  gotos :
    ∀ state head,
      second.report (table.goto second state head) =
        first.report (table.goto first state head)
  kinds :
    ∀ state,
      second.report (table.shownKinds second state) =
        first.report (table.shownKinds first state)
  states : ∀ state, table.HasState state → first.SameIn second state
  entries : ∀ cell ∈ table.actions, first.SameIn second cell.entry
  reductions :
    ∀ cell ∈ table.actions,
      ∀ value,
        cell.entry = .action (.reduce .direct value) →
          first.SameIn second value ∧
            second.length? value = first.length? value
  heads :
    ∀ cell ∈ table.actions,
      ∀ production,
        cell.entry = .action (.reduce .direct (.production production)) →
          first.SameIn second production.head
  holds : ∀ value, held value → first.SameIn second value

namespace SameSight

variable
  {table : Table}
  {held fewer : Value → Prop}
  {first second third : Store}

theorem refl
    (table : Table)
    (held : Value → Prop)
    (store : Store) :
    table.SameSight held store store where
  actions _ _ := rfl
  gotos _ _ := rfl
  kinds _ := rfl
  states _ _ := .refl store _
  entries _ _ := .refl store _
  reductions _ _ _ _ := ⟨.refl store _, rfl⟩
  heads _ _ _ _ := .refl store _
  holds _ _ := .refl store _

theorem symm
    (same : table.SameSight held first second) :
    table.SameSight held second first where
  actions state kind := (same.actions state kind).symm
  gotos state head := (same.gotos state head).symm
  kinds state := (same.kinds state).symm
  states state known := (same.states state known).symm
  entries cell member := (same.entries cell member).symm
  reductions cell member value reduces :=
    have ⟨sameValue, length⟩ := same.reductions cell member value reduces
    ⟨sameValue.symm, length.symm⟩
  heads cell member production reduces :=
    (same.heads cell member production reduces).symm
  holds value isHeld := (same.holds value isHeld).symm

theorem trans
    (before : table.SameSight held first second)
    (after : table.SameSight held second third) :
    table.SameSight held first third where
  actions state kind :=
    (after.actions state kind).trans (before.actions state kind)
  gotos state head := (after.gotos state head).trans (before.gotos state head)
  kinds state := (after.kinds state).trans (before.kinds state)
  states state known :=
    (before.states state known).trans (after.states state known)
  entries cell member :=
    (before.entries cell member).trans (after.entries cell member)
  reductions cell member value reduces :=
    have ⟨same, length⟩ := before.reductions cell member value reduces
    have ⟨sameAfter, lengthAfter⟩ :=
      after.reductions cell member value reduces
    ⟨same.trans sameAfter, lengthAfter.trans length⟩
  heads cell member production reduces :=
    (before.heads cell member production reduces).trans
      (after.heads cell member production reduces)
  holds value isHeld :=
    (before.holds value isHeld).trans (after.holds value isHeld)

/-- Where fewer values are held, there is less to be told apart. -/
theorem mono
    (same : table.SameSight held first second)
    (fewerHeld : ∀ value, fewer value → held value) :
    table.SameSight fewer first second :=
  { same with
    holds := fun value isHeld => same.holds value (fewerHeld value isHeld) }

/-- A table that cannot be told apart in two stores looks the same in them. -/
theorem sameLook
    (same : table.SameSight held first second) :
    table.SameLook first second where
  actions state _ kind := same.actions state (.text kind)
  gotos state _ head := same.gotos state (.nonterminal head)
  kinds state _ := same.kinds state
  states state known := (same.states state known).whole
  entries cell member := (same.entries cell member).whole
  rules cell member _ reduces :=
    have ⟨sameRule, _⟩ := same.reductions cell member _ reduces
    Value.production.inj sameRule.part
  reductions cell member value reduces :=
    have ⟨sameValue, length⟩ := same.reductions cell member value reduces
    ⟨length, congrArg Value.plain sameValue.whole⟩

/-- Whatever a table answers with looks the same. -/
theorem answer
    (same : table.SameSight held first second)
    {store : Store}
    {state column entry : Value}
    (found : table.action store state column = .ok entry) :
    first.SameIn second entry := by
  rcases action_mem found with missing | ⟨cell, member, rfl⟩
  · subst missing
    exact .errorAction first second
  · exact same.entries cell member

/-- The head of a rule that a table answers with looks the same. -/
theorem head
    (same : table.SameSight held first second)
    {store : Store}
    {state column : Value}
    {production : Production}
    (found :
      table.action store state column =
        .ok (.action (.reduce .direct (.production production)))) :
    first.SameIn second production.head := by
  rcases action_mem found with missing | ⟨cell, member, entry⟩
  · simp at missing
  · exact same.heads cell member production entry

end SameSight

end Table

namespace Situation

/-- The values that a parse is about: tokens still to come, and tokens on the stack. -/
def Holds
    (situation : Situation)
    (value : Value) :
    Prop :=
  value ∈ situation.pending ∨
    ∃ token, value = .token token ∧ .token token ∈ situation.symbols

section Moves

variable
  {table : Table}
  {store : Store}
  {chosen : Decision}
  {before after : Situation}
  (moves : Moves chosen before after)
  (sanctioned : before.Sanctions table store chosen)

include moves sanctioned

/-- A sanctioned action leads to states of the table only. -/
theorem Moves.known
    (known : ∀ state ∈ before.states, table.HasState state) :
    ∀ state ∈ after.states, table.HasState state := by
  intro state member
  cases moves with
  | shift =>
      cases sanctioned with
      | shift top lookahead named entry =>
          rcases List.mem_cons.mp member with rfl | below
          · exact Table.hasState_of_action entry
          · exact known state below
  | reduce headed =>
      cases sanctioned with
      | reduce top lookahead named entry shallow exposes goto present =>
          rcases List.mem_cons.mp member with rfl | below
          · exact Table.hasState_of_goto goto present
          · exact known state (List.mem_of_mem_drop below)
  | accept => exact known state member

/-- A sanctioned action brings nothing in that was not there. -/
theorem Moves.holds
    {value : Value}
    (holds : after.Holds value) :
    before.Holds value := by
  cases moves with
  | shift =>
      cases sanctioned with
      | shift top lookahead named entry =>
          cases lookahead
          rcases holds with pending | ⟨token, rfl, stacked⟩
          · exact .inl (List.mem_cons_of_mem _ pending)
          · rcases List.mem_cons.mp stacked with same | below
            · cases same
              exact .inl List.mem_cons_self
            · exact .inr ⟨token, rfl, below⟩
  | reduce headed =>
      rcases holds with pending | ⟨token, rfl, stacked⟩
      · exact .inl pending
      · rcases List.mem_cons.mp stacked with same | below
        · cases same
        · exact .inr ⟨token, rfl, List.mem_of_mem_drop below⟩
  | accept => exact holds

end Moves

end Situation

namespace Parser

section Sight

variable
  {table : Table}
  {held : Value → Prop}
  {first second : Store}
  {parser other : Parser}
  {state token : Value}
  (sight : table.SameSight held first second)

include sight

/-- With the same states, the same is selected in both stores. -/
theorem select_sight
    (states : other.states = parser.states)
    (token : Value) :
    second.report (other.select second (.table table) token) =
      first.report (parser.select first (.table table) token) := by
  unfold select topState
  rw [states]
  cases parser.states with
  | nil => exact congrArg Except.error (Store.settle_eq_of_resolveFault rfl)
  | cons state below =>
      simp only [bind, Except.bind]
      cases token.kind? with
      | none =>
          exact congrArg Except.error (Store.settle_eq_of_resolveFault rfl)
      | some kind =>
          dsimp only
          rcases Store.report_cases (sight.actions state (.text kind)) with
              ⟨action, answer, otherAnswer⟩ |
                ⟨cause, otherCause, answer, otherAnswer, same⟩
          · rw [answer, otherAnswer]
            rfl
          · rw [answer, otherAnswer]
            exact congrArg Except.error same

/-- With the same stacks, a reduction leads to the same state in both stores. -/
theorem nextAfter_sight
    {kind : Value}
    {production : Production}
    (states : other.states = parser.states)
    (symbols : other.symbols = parser.symbols)
    (known : ∀ state ∈ parser.states, table.HasState state)
    (topKnown : table.HasState state)
    (found :
      table.action first state kind =
        .ok (.action (.reduce .direct (.production production))))
    (token action : Value) :
    second.report
        (other.nextAfter second ⟨table, state, token, action⟩ production) =
      first.report
        (parser.nextAfter first ⟨table, state, token, action⟩ production) := by
  have look := sight.sameLook
  have sameHead := (sight.head found).whole
  unfold nextAfter
  rw [symbols]
  by_cases deep : parser.symbols.length ≤ production.length
  · simp only [deep, if_true, Store.report_error, Except.error.injEq]
    apply Store.settle_eq_of_resolveDefect
    simp only [Store.resolveDefect, look.rule found,
      look.states state topKnown]
  · simp only [deep, if_false, exposedState, states]
    cases exposes : parser.states[production.length]? with
    | none => exact congrArg Except.error (Store.settle_eq_of_resolveFault rfl)
    | some exposed =>
        have exposedKnown := known exposed (List.mem_of_getElem? exposes)
        simp only [bind, Except.bind]
        rcases Store.report_cases (sight.gotos exposed production.head) with
            ⟨next, answer, otherAnswer⟩ |
              ⟨cause, otherCause, answer, otherAnswer, same⟩
        · rw [answer, otherAnswer]
          cases absent : next.isNone with
          | false => simp [absent, pure, Except.pure]
          | true =>
              simp only [absent, if_true, Store.report_error,
                Except.error.injEq]
              apply Store.settle_eq_of_resolveDefect
              simp only [Store.resolveDefect, sameHead,
                look.states exposed exposedKnown]
        · rw [answer, otherAnswer]
          exact congrArg Except.error same

/-- A token that is held is refused alike in both stores. -/
theorem refuseToken_sight
    (topKnown : table.HasState state)
    (isHeld : held token)
    (action : Value) :
    second.report (refuseToken second ⟨table, state, token, action⟩) =
      first.report (refuseToken first ⟨table, state, token, action⟩) := by
  have sameState := (sight.states state topKnown).whole
  have sameToken := (sight.holds token isHeld).whole
  unfold refuseToken
  simp only [sameState, sameToken]
  cases Fault.refusal (first.resolve token) (first.resolve state) with
  | error misfit =>
      exact congrArg Except.error (Store.settle_eq_of_resolveFault rfl)
  | ok text =>
      have sameKinds := sight.kinds state
      simp only [Table.shownKinds] at sameKinds
      simp only [Fault.ofRendering, bind, Except.bind]
      cases diagnosed : table.diagnose first state with
      | error cause =>
          cases diagnosedOther : table.diagnose second state with
          | ok kinds => simp [diagnosed, diagnosedOther, Except.map] at sameKinds
          | error otherCause =>
              simp only [diagnosed, diagnosedOther, Except.map] at sameKinds
              exact congrArg Except.error (Except.error.inj sameKinds)
      | ok kinds =>
          cases diagnosedOther : table.diagnose second state with
          | error otherCause =>
              simp [diagnosed, diagnosedOther, Except.map] at sameKinds
          | ok otherKinds =>
              simp only [diagnosed, diagnosedOther, Except.map] at sameKinds
              apply congrArg Except.error
              apply Store.settle_eq_of_resolveFault
              simp only [Store.resolveFault, sameState, sameToken,
                Except.ok.inj sameKinds]

/-- With the same stacks, what was selected leads to the same decision in both stores. -/
theorem decision_sight
    {kind action : Value}
    (states : other.states = parser.states)
    (symbols : other.symbols = parser.symbols)
    (known : ∀ state ∈ parser.states, table.HasState state)
    (topKnown : table.HasState state)
    (isHeld : held token)
    (found : table.action first state kind = .ok action) :
    second.report (other.decision second ⟨table, state, token, action⟩) =
      first.report (parser.decision first ⟨table, state, token, action⟩) := by
  unfold decision
  dsimp only
  split
  · rfl
  · next production =>
      have same :=
        nextAfter_sight sight states symbols known topKnown found token
          (.action (.reduce .direct (.production production)))
      rcases Store.report_cases same with
          ⟨next, answer, otherAnswer⟩ |
            ⟨cause, otherCause, answer, otherAnswer, settled⟩
      · rw [answer, otherAnswer]
        rfl
      · rw [answer, otherAnswer]
        exact congrArg Except.error settled
  · exact
      refuseReduction_alike sight.sameLook states
        (congrArg List.length symbols) found
  · rfl
  · exact refuseToken_sight sight topKnown isHeld _
  · apply congrArg Except.error
    apply Store.settle_eq_of_resolveDefect
    simp only [Store.resolveDefect, (sight.answer found).whole,
      (sight.states state topKnown).whole]

/-- The same stacks are shown alike in both stores. -/
theorem stackBlock_sight
    (states : other.states = parser.states)
    (symbols : other.symbols = parser.symbols)
    (known : ∀ state ∈ parser.states, table.HasState state)
    (holds : ∀ token, .token token ∈ parser.symbols → held (.token token)) :
    other.stackBlock.resolve second = parser.stackBlock.resolve first := by
  simp only [stackBlock, TraceBlock.resolve, states, symbols,
    TraceBlock.stack.injEq]
  constructor
  · apply List.map_congr_left
    intro symbol member
    cases symbol with
    | token token =>
        have same :=
          (sight.holds _ (holds token (List.mem_reverse.mp member))).part
        exact congrArg Symbol.token (Value.token.inj same)
    | nonterminal nonterminal => rfl
    | bare identity => rfl
  · apply List.map_congr_left
    intro state member
    exact (sight.states state (known state (List.mem_reverse.mp member))).whole

/-- An action that breaks off shows the same fault in both stores. -/
theorem commit_sight
    {store : Store}
    {chosen : Decision}
    {cause : Fault}
    {after : Parser}
    (sanctioned : parser.situation.Sanctions table store chosen)
    (holds : ∀ value ∈ parser.pending, held value)
    (broken : commit chosen parser = .error cause after) :
    second.settle cause = first.settle cause := by
  cases sanctioned with
  | accept => cases broken
  | @shift state token next kind top lookahead named entry =>
      obtain ⟨rest, queue⟩ := List.head?_eq_some_iff.mp lookahead
      change parser.pending = token :: rest at queue
      have isHeld := holds token (by rw [queue]; exact List.mem_cons_self)
      have same := (sight.holds token isHeld).whole
      cases token with
      | token carried =>
          rw [commit_shift queue] at broken
          cases broken
      | _ =>
          cases broken
          exact
            Store.settle_eq_of_resolveFault
              (congrArg Fault.expectedToken same)
  | @reduce state token exposed next kind production top lookahead named entry
      shallow exposes goto present =>
      have same := (sight.head entry).whole
      have statesEnough : production.length ≤ parser.states.length :=
        Nat.le_of_lt (List.getElem?_eq_some_iff.mp exposes).1
      rw [commit_reduce statesEnough (Nat.le_of_lt shallow)] at broken
      cases headed : production.head with
      | nonterminal head =>
          rw [headed] at broken
          cases broken
      | _ =>
          rw [headed] at broken same
          cases broken
          exact
            Store.settle_eq_of_resolveFault
              (congrArg Fault.expectedNonterminal same)

end Sight

end Parser

end ShiftReduce
