import ShiftReduce.Parser.Trace
import ShiftReduce.Proofs.Table.Orderly

namespace ShiftReduce

/-!
# What can always be shown

Proper rules and actions have texts without misfits, whatever fills the places that
they mention.  So a parser whose states are constants and whose tokens carry plain
data can show its stacks, its lookahead and its action, and every fault over them
can be worded.
-/

theorem Value.plainEach_constants
    {values : List Value}
    (constants : Value.areConstants values = true) :
    ∃ texts, Rendering.inOrder (Value.plainEach values) = .ok texts := by
  induction values with
  | nil =>
      exact ⟨[], rfl⟩
  | cons value rest inductionHypothesis =>
      have parts := Bool.and_eq_true_iff.mp constants
      obtain ⟨texts, showsRest⟩ := inductionHypothesis parts.2
      obtain ⟨text, shows⟩ :=
        Value.shown_plain (Value.isPlain_of_constant parts.1)
      obtain ⟨plain, plainly⟩ :
          ∃ plain, value.plainOr value.shown = .ok plain := by
        cases value with
        | text content => exact ⟨content, rfl⟩
        | _ => exact ⟨text, shows⟩
      simp [Value.plainEach, Rendering.inOrder, plainly, showsRest, bind,
        Except.bind, pure, Except.pure]

theorem Value.expandAll_constants
    (fill : Filling)
    {values : List Value}
    (constants : Value.areConstants values = true) :
    Value.expandAll fill values = values := by
  have unchanged :
      (Value.tuple values).expand fill = Value.tuple values :=
    Value.expand_constant fill constants
  exact Value.tuple.inj unchanged

theorem Production.head_of_isProper
    {production : Production}
    (proper : production.isProper = true) :
    ∃ head, production.head = .nonterminal head := by
  unfold isProper at proper
  split at proper
  · next head headed => exact ⟨head, headed⟩
  · cases proper

/-- A proper rule can be shown, whatever fills the places that it mentions. -/
theorem Production.shown_expand
    (fill : Filling)
    {production : Production}
    (proper : production.isProper = true) :
    ∃ text, (production.expand fill).shown = .ok text := by
  obtain ⟨head, headed⟩ := head_of_isProper proper
  rcases production with ⟨identity, _, body, index⟩
  cases headed
  have constants : Value.areConstants body = true := proper
  have expanded :
      Production.expand fill ⟨identity, .nonterminal head, body, index⟩ =
        ⟨identity, .nonterminal head, body, index.expand fill⟩ := by
    simp only [expand, Value.expand, Value.expandAll_constants fill constants]
  rw [expanded]
  cases body with
  | nil =>
      exact ⟨_, rfl⟩
  | cons entry rest =>
      obtain ⟨texts, shows⟩ := Value.plainEach_constants constants
      simp [shown, shows, Value.plainOr, Value.shown, bind, Except.bind, pure,
        Except.pure]

/-- A proper action can be shown, whatever fills the places that it mentions. -/
theorem Action.shown_expand
    (fill : Filling)
    {action : Action}
    (proper : action.isProper = true) :
    ∃ text, (action.expand fill).shown = .ok text := by
  cases action with
  | shift lineage next =>
      have constant : next.isConstant = true := proper
      obtain ⟨text, shows⟩ :=
        Value.shown_plain (Value.isPlain_of_constant constant)
      simp [expand, shown, Value.expand_constant fill constant, shows, bind,
        Except.bind, pure, Except.pure]
  | reduce lineage rule =>
      cases rule with
      | production production =>
          obtain ⟨text, shows⟩ := Production.shown_expand fill proper
          simp [expand, Value.expand, shown, Value.isTuple, Value.plainOr,
            Value.shown, shows, bind, Except.bind, pure, Except.pure]
      | _ => cases proper
  | accept lineage => exact ⟨_, rfl⟩
  | error lineage => exact ⟨_, rfl⟩
  | unknown which => exact ⟨_, rfl⟩

namespace Store

variable (store : Store)

theorem resolve_action
    (action : Action) :
    ∃ fill, store.resolve (.action action) = .action (action.expand fill) := by
  unfold resolve levels
  rw [Nat.succ_mul]
  exact ⟨_, rfl⟩

theorem shown_properAction
    {action : Value}
    (proper : action.isProperAction = true) :
    ∃ text, (store.resolve action).shown = .ok text := by
  cases action with
  | action carried =>
      obtain ⟨fill, resolved⟩ := store.resolve_action carried
      rw [resolved]
      exact Action.shown_expand fill proper
  | _ => cases proper

theorem shown_constant
    {value : Value}
    (constant : value.isConstant = true) :
    ∃ text, (store.resolve value).shown = .ok text :=
  Value.shown_plain (store.isPlain_of_constant constant)

/-- A fault that can be worded shows as what it is. -/
theorem settle_of_wording
    {fault : Fault}
    {text : String}
    (worded : (store.resolveFault fault).wording = .ok text) :
    store.settle fault = store.resolveFault fault := by
  simp only [settle, worded]

end Store

/-- Whether a defect is over constants, proper rules and proper actions. -/
def Defect.IsProper :
    Defect → Prop
  | .tooDeep production _ _ => production.isProper = true
  | .missingGoto head state =>
      head.isConstant = true ∧ state.isConstant = true
  | .unknownAction action state =>
      action.isProperAction = true ∧ state.isConstant = true
  | .inputExhausted state => state.isConstant = true

namespace Store

variable (store : Store)

/-- A proper defect can be worded. -/
theorem settle_defect
    {defect : Defect}
    (proper : defect.IsProper) :
    store.settle (.malformedTable defect) =
      .malformedTable (store.resolveDefect defect) := by
  obtain ⟨text, worded⟩ :
      ∃ text, (store.resolveDefect defect).wording = .ok text := by
    cases defect with
    | tooDeep production available state =>
        obtain ⟨text, shows⟩ := Production.shown_expand store.filling proper
        simp [resolveDefect, resolveProduction, Defect.wording, shows, bind,
          Except.bind, pure, Except.pure]
    | missingGoto head state =>
        obtain ⟨headText, showsHead⟩ := store.shown_constant proper.1
        obtain ⟨stateText, showsState⟩ := store.shown_constant proper.2
        simp [resolveDefect, Defect.wording, showsHead, showsState, bind,
          Except.bind, pure, Except.pure]
    | unknownAction action state =>
        obtain ⟨actionText, showsAction⟩ := store.shown_properAction proper.1
        obtain ⟨stateText, showsState⟩ := store.shown_constant proper.2
        simp [resolveDefect, Defect.wording, showsAction, showsState, bind,
          Except.bind, pure, Except.pure]
    | inputExhausted state =>
        obtain ⟨stateText, showsState⟩ := store.shown_constant proper
        simp [resolveDefect, Defect.wording, showsState, bind, Except.bind,
          pure, Except.pure]
  exact store.settle_of_wording worded

/-- The refusal of a token in a state, both of which can be shown, can be worded. -/
theorem settle_refused
    {store : Store}
    {state token : Value}
    {stateText tokenText : String}
    (showsToken : (store.resolve token).shown = .ok tokenText)
    (showsState : (store.resolve state).shown = .ok stateText)
    (expected : List Value) :
    store.settle (.unexpectedToken state token expected) =
      .unexpectedToken (store.resolve state) (store.resolve token)
        (expected.map store.resolve) := by
  have worded :
      (store.resolveFault (.unexpectedToken state token expected)).wording =
        .ok ("Unexpected token: " ++ tokenText ++ " in state " ++ stateText) := by
    simp [resolveFault, Fault.wording, Fault.refusal, showsToken, showsState,
      bind, Except.bind, pure, Except.pure]
  exact store.settle_of_wording worded

theorem refusal_ok
    {store : Store}
    {token : Token}
    (plain : store.IsPlain token.value)
    {state : Value}
    (constant : state.isConstant = true) :
    ∃ text,
      Fault.refusal (store.resolve (.token token)) (store.resolve state) =
        .ok text := by
  obtain ⟨tokenText, showsToken⟩ := shown_token plain
  obtain ⟨stateText, showsState⟩ := store.shown_constant constant
  simp [Fault.refusal, showsToken, showsState, bind, Except.bind, pure,
    Except.pure]

/-- The refusal of a token with a plain payload can be worded. -/
theorem settle_refusal
    {store : Store}
    {token : Token}
    (plain : store.IsPlain token.value)
    {state : Value}
    (constant : state.isConstant = true)
    (expected : List Value) :
    store.settle (.unexpectedToken state (.token token) expected) =
      .unexpectedToken state (store.resolve (.token token))
        (expected.map store.resolve) := by
  obtain ⟨tokenText, showsToken⟩ := shown_token plain
  obtain ⟨stateText, showsState⟩ := store.shown_constant constant
  rw [settle_refused showsToken showsState, store.resolve_constant constant]

end Store

namespace TraceBlock

theorem obstacle?_none
    {pieces : List Rendering}
    (fit : ∀ piece ∈ pieces, ∃ text, piece = .ok text) :
    obstacle? pieces = none := by
  induction pieces with
  | nil =>
      rfl
  | cons piece rest inductionHypothesis =>
      obtain ⟨text, rfl⟩ := fit piece List.mem_cons_self
      exact inductionHypothesis fun other member =>
        fit other (List.mem_cons_of_mem _ member)

/-- Stacks of which every entry can be shown can be printed. -/
theorem stack_fits
    {symbols : List Symbol}
    {states : List Value}
    (symbolsFit : ∀ symbol ∈ symbols, ∃ text, symbol.shown = .ok text)
    (statesFit : ∀ state ∈ states, ∃ text, state.shown = .ok text) :
    (stack symbols states).misfit? = none := by
  apply obstacle?_none
  intro piece member
  rcases List.mem_append.mp member with inSymbols | inStates
  · rcases List.mem_append.mp inSymbols with first | last
    · rcases List.mem_cons.mp first with label | entry
      · exact ⟨_, label⟩
      · obtain ⟨symbol, symbolMember, rfl⟩ := List.mem_map.mp entry
        obtain ⟨text, shows⟩ := symbolsFit symbol symbolMember
        simp [symbolPiece, shows, bind, Except.bind, pure, Except.pure]
    · exact ⟨_, List.mem_singleton.mp last⟩
  · rcases List.mem_append.mp inStates with first | last
    · rcases List.mem_cons.mp first with label | entry
      · exact ⟨_, label⟩
      · rw [← List.map_uncurry_zip_eq_zipWith] at entry
        obtain ⟨⟨symbol, state⟩, pairMember, rfl⟩ := List.mem_map.mp entry
        have members := List.of_mem_zip pairMember
        obtain ⟨symbolText, showsSymbol⟩ := symbolsFit symbol members.1
        obtain ⟨stateText, showsState⟩ := statesFit state members.2
        simp [statePiece, showsSymbol, showsState, bind, Except.bind, pure,
          Except.pure]
    · exact ⟨_, List.mem_singleton.mp last⟩

theorem lookahead_fits
    {token : Value}
    (fits : ∃ text, token.shown = .ok text) :
    (lookahead token).misfit? = none := by
  obtain ⟨text, shows⟩ := fits
  simp [misfit?, pieces, lookaheadLine, shows, obstacle?, bind, Except.bind,
    pure, Except.pure]

/-- An action that can be shown can be printed. -/
theorem action_fits_of_shown
    {store : Store}
    {carried : Action}
    (fits : ∃ text, (store.resolve (.action carried)).shown = .ok text) :
    ((action (.action carried)).resolve store).misfit? = none := by
  obtain ⟨text, shows⟩ := fits
  obtain ⟨fill, resolved⟩ := store.resolve_action carried
  have inGap :
      store.resolveInGap (.action carried) = .action (carried.expand fill) :=
    resolved
  rw [resolved] at shows
  simp [resolve, inGap, misfit?, pieces, actionLine, Value.shownInGap, shows,
    obstacle?, bind, Except.bind, pure, Except.pure]

theorem action_fits
    (store : Store)
    {entry : Value}
    (proper : entry.isProperAction = true) :
    ((action entry).resolve store).misfit? = none := by
  have shows := store.shown_properAction proper
  cases entry with
  | action carried => exact action_fits_of_shown shows
  | _ => cases proper

end TraceBlock

end ShiftReduce
