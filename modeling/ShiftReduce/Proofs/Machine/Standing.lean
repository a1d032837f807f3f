import ShiftReduce.Proofs.Machine.Basic
import ShiftReduce.Proofs.Parser.Legible
import ShiftReduce.Proofs.Run.Turn

namespace ShiftReduce

/-!
# A parser where the machine stands

A parser stands where the machine stands if its two stacks and its queue are those
of the machine's configuration (`Run.Stands`).  With an orderly table, its decision
is then the answer to what the machine does next (`Run.Stands.answers`).

The parser looks for the state below a reduction in one stack, guarded by the
length of the other, and pops afterwards; the machine pops first.  That both come
to the same is `Run.Stands.nextAfter_eq`.
-/

/-- The tokens that the machine takes notice of: those of its frames and the first to come. -/
def Machine.Configuration.Meets
    (configuration : Machine.Configuration)
    (token : Token) :
    Prop :=
  (∃ state, (state, .token token) ∈ configuration.frames) ∨
    configuration.pending.head? = some token

namespace Run

variable
  {ω : Type}
  {deliver : Deliver ω}
  {table : Table}
  {met : Token → Prop}
  {configuration : Machine.Configuration}
  {frame : Frame ω}

/-- A parser at work stands where the machine stands, and can show everything it meets. -/
structure Stands
    (met : Token → Prop)
    (configuration : Machine.Configuration)
    (frame : Frame ω) :
    Prop where
  situation : frame.situation = configuration.situation
  constants : configuration.HasConstants
  meets : ∀ token, configuration.Meets token → met token
  plain : ∀ token, met token → frame.store.IsPlain token.value

namespace Stands

theorem states_eq
    (stands : Stands met configuration frame) :
    frame.parser.states = configuration.situation.states :=
  congrArg Situation.states stands.situation

theorem symbols_eq
    (stands : Stands met configuration frame) :
    frame.parser.symbols = configuration.situation.symbols :=
  congrArg Situation.symbols stands.situation

theorem pending_eq
    (stands : Stands met configuration frame) :
    frame.parser.pending = configuration.situation.pending :=
  congrArg Situation.pending stands.situation

theorem pending_of_nothing
    (stands : Stands met configuration frame)
    (queue : configuration.pending = []) :
    frame.parser.pending = [] := by
  rw [stands.pending_eq, Machine.Configuration.situation, queue]
  rfl

theorem pending_of_lookahead
    (stands : Stands met configuration frame)
    {token : Token}
    {rest : List Token}
    (queue : configuration.pending = token :: rest) :
    frame.parser.pending = .token token :: rest.map .token := by
  rw [stands.pending_eq, Machine.Configuration.situation, queue]
  rfl

theorem topState_eq
    (stands : Stands met configuration frame) :
    frame.parser.topState = .ok configuration.top := by
  obtain ⟨below, shape⟩ := configuration.states_eq
  simp only [Parser.topState, stands.states_eq, shape]

theorem prints
    {after : Frame ω}
    (stands : Stands met configuration frame)
    (prints : frame.PrintsTo after) :
    Stands met configuration after where
  situation := prints.situation.trans stands.situation
  constants := stands.constants
  meets := stands.meets
  plain := by
    rw [prints.store]
    exact stands.plain

/-- The stacks can be printed. -/
theorem stack_fits
    (stands : Stands met configuration frame) :
    (frame.parser.stackBlock.resolve frame.store).misfit? = none := by
  apply TraceBlock.stack_fits
  · intro shown member
    obtain ⟨symbol, symbolMember, rfl⟩ := List.mem_map.mp member
    rw [List.mem_reverse, stands.symbols_eq] at symbolMember
    rcases List.mem_append.mp symbolMember with framed | marker
    · obtain ⟨⟨state, held⟩, framedMember, rfl⟩ := List.mem_map.mp framed
      cases held with
      | token token =>
          exact Store.shown_tokenSymbol
            (stands.plain token
              (stands.meets token (.inl ⟨state, framedMember⟩)))
      | nonterminal carried => exact ⟨_, rfl⟩
      | bare identity => exact ⟨_, rfl⟩
    · rw [List.mem_singleton.mp marker]
      exact ⟨_, rfl⟩
  · intro shown member
    obtain ⟨state, stateMember, rfl⟩ := List.mem_map.mp member
    rw [List.mem_reverse, stands.states_eq] at stateMember
    rcases List.mem_append.mp stateMember with framed | initial
    · obtain ⟨⟨held, symbol⟩, framedMember, rfl⟩ := List.mem_map.mp framed
      exact frame.store.shown_constant
        (stands.constants.2 _ framedMember)
    · rw [List.mem_singleton.mp initial]
      exact frame.store.shown_constant stands.constants.1

theorem printSelection_ok
    (stands : Stands met configuration frame)
    (selection : Selection)
    {token : Token}
    (selected : selection.token = .token token)
    (lookahead : configuration.pending.head? = some token)
    (proper : selection.action.isProperAction = true) :
    ∃ after,
      printSelection selection frame = .ok () after ∧
        frame.PrintsTo after := by
  have plain := stands.plain token (stands.meets token (.inr lookahead))
  apply Run.printSelection_ok stands.stack_fits
  · rw [selected]
    exact TraceBlock.lookahead_fits (Store.shown_token plain)
  · exact TraceBlock.action_fits frame.store proper

theorem select_eq
    (orderly : table.Orderly)
    (stands : Stands met configuration frame)
    (token : Token) :
    frame.parser.select frame.store (.table table) (.token token) =
      .ok
        ⟨table, configuration.top, .token token,
          table.actionAt configuration.top token.kind⟩ := by
  have entry :=
    orderly.action_eq frame.store stands.constants.top token.kind
  simp only [Parser.select, stands.topState_eq, Value.kind?, entry, bind,
    Except.bind, pure, Except.pure]

/--
Looking for the state below a reduction leads where popping would.

The symbols and the states are as many as the machine has frames, each with its
bottom, so the guard on the one stack protects the look into the other.
-/
theorem nextAfter_eq
    (orderly : table.Orderly)
    (stands : Stands met configuration frame)
    {production : Production}
    (proper : production.isProper = true)
    (state token action : Value) :
    frame.parser.nextAfter frame.store ⟨table, state, token, action⟩
        production =
      if production.length ≤ configuration.frames.length then
        match
          table.gotoAt? (configuration.drop production.length).top
            production.head with
        | some next => .ok next
        | none =>
            .error (.malformedTable
              (.missingGoto production.head
                (configuration.drop production.length).top))
      else
        .error (.malformedTable
          (.tooDeep production configuration.frames.length state)) := by
  have height :
      frame.parser.symbols.length = configuration.frames.length + 1 := by
    rw [stands.symbols_eq]
    simp [Machine.Configuration.situation]
  by_cases shallow : production.length ≤ configuration.frames.length
  · have notDeep : ¬ configuration.frames.length + 1 ≤ production.length := by
      omega
    obtain ⟨head, headed⟩ := Production.head_of_isProper proper
    have exposed := Machine.Configuration.exposed_eq shallow
    have goto :=
      orderly.goto_eq frame.store (stands.constants.drop production.length).top
        (rfl : (Value.nonterminal head).isConstant = true)
    simp only [Parser.nextAfter, height, notDeep, Parser.exposedState,
      stands.states_eq, exposed, headed, goto, bind, Except.bind, shallow,
      if_true, if_false]
    cases found :
        table.gotoAt? (configuration.drop production.length).top
          (.nonterminal head) with
    | none => rfl
    | some next =>
        have present := Table.gotoAt?_present found
        simp [present, pure, Except.pure]
  · have deep : configuration.frames.length + 1 ≤ production.length := by
      omega
    simp only [Parser.nextAfter, height, deep, shallow, if_true, if_false,
      Nat.add_sub_cancel]

end Stands

/-- A decision can be carried out in a configuration, and leads to the next one. -/
def Leads
    (decision : Decision)
    (before after : Machine.Configuration) :
    Prop :=
  ∀ parser : Parser,
    parser.situation = before.situation →
      ∃ next,
        Parser.commit decision parser = .ok () next ∧
          next.situation = after.situation ∧
          next.accepted = parser.accepted

theorem leads_shift
    {token : Token}
    {rest : List Token}
    (queue : configuration.pending = token :: rest)
    (state next : Value) :
    Leads (.shift state (.token token) next) configuration
      { configuration.push next (.token token) with pending := rest } := by
  intro parser same
  have lookahead : parser.pending = .token token :: rest.map .token := by
    have pending := congrArg Situation.pending same
    rw [Machine.Configuration.situation, queue] at pending
    exact pending
  have states : parser.states = configuration.situation.states :=
    congrArg Situation.states same
  have symbols : parser.symbols = configuration.situation.symbols :=
    congrArg Situation.symbols same
  refine ⟨_, Parser.commit_shift lookahead state next token, ?_, rfl⟩
  simp only [Parser.situation, states, symbols]
  rfl

theorem leads_reduce
    {production : Production}
    {head : NonTerminal}
    (headed : production.head = .nonterminal head)
    (shallow : production.length ≤ configuration.frames.length)
    (state next : Value) :
    Leads (.reduce state production next) configuration
      ((configuration.drop production.length).push next
        (.nonterminal head)) := by
  intro parser same
  have states : parser.states = configuration.situation.states :=
    congrArg Situation.states same
  have symbols : parser.symbols = configuration.situation.symbols :=
    congrArg Situation.symbols same
  have pending : parser.pending = configuration.situation.pending :=
    congrArg Situation.pending same
  have statesEnough : production.length ≤ parser.states.length := by
    rw [states]
    simp only [Machine.Configuration.situation, List.length_append,
      List.length_map]
    omega
  have symbolsEnough : production.length ≤ parser.symbols.length := by
    rw [symbols]
    simp only [Machine.Configuration.situation, List.length_append,
      List.length_map]
    omega
  have committed := Parser.commit_reduce statesEnough symbolsEnough state next
  rw [headed] at committed
  refine ⟨_, committed, ?_, rfl⟩
  have dropped := Machine.Configuration.situation_drop shallow
  simp only [Machine.Configuration.situation, Situation.mk.injEq] at dropped
  simp only [Parser.situation, states, symbols, pending,
    Machine.Configuration.situation, Machine.Configuration.push, List.map_cons,
    List.cons_append, dropped]

/-- What a parser decides is the answer to what the machine does next. -/
inductive Answers
    (configuration : Machine.Configuration) :
    Machine.Outcome → Except Fault Decision → Prop where
  | goesOn
      {event : Event}
      {next : Machine.Configuration}
      {decision : Decision}
      (tells : decision.event = event)
      (runs : decision.progress = .running)
      (leads : Leads decision configuration next) :
      Answers configuration (.goesOn event next) (.ok decision)
  | accepted
      {state : Value} :
      Answers configuration (.ends (.accepted state)) (.ok (.accept state))
  | refused
      {state : Value}
      {token : Token}
      {expected : List Value}
      (top : state = configuration.top)
      (lookahead : configuration.pending.head? = some token) :
      Answers configuration (.ends (.refused state token))
        (.error (.unexpectedToken state (.token token) expected))
  | stuck
      {defect : Defect}
      (proper : defect.IsProper) :
      Answers configuration (.ends (.stuck defect))
        (.error (.malformedTable defect))

namespace Stands

theorem refuseToken_eq
    (orderly : table.Orderly)
    (stands : Stands met configuration frame)
    {token : Token}
    (lookahead : configuration.pending.head? = some token)
    (action : Value) :
    ∃ expected,
      Parser.refuseToken frame.store
          ⟨table, configuration.top, .token token, action⟩ =
        .error
          (.unexpectedToken configuration.top (.token token) expected) := by
  have plain := stands.plain token (stands.meets token (.inr lookahead))
  obtain ⟨text, worded⟩ := Store.refusal_ok plain stands.constants.top
  obtain ⟨expected, diagnosed⟩ :=
    orderly.diagnose_ok frame.store stands.constants.top
  refine ⟨expected, ?_⟩
  simp only [Parser.refuseToken, worded, Fault.ofRendering, diagnosed, bind,
    Except.bind]

/-- A reduction that is checked before anything is popped ends as one that pops first. -/
theorem answers_reduce
    (orderly : table.Orderly)
    (stands : Stands met configuration frame)
    {production : Production}
    (proper : production.isProper = true)
    (token action : Value) :
    Answers configuration
      (Machine.reduce table configuration production)
      (do
        let next ←
          frame.parser.nextAfter frame.store
            ⟨table, configuration.top, token, action⟩ production
        return .reduce configuration.top production next) := by
  obtain ⟨head, headed⟩ := Production.head_of_isProper proper
  rw [stands.nextAfter_eq orderly proper]
  unfold Machine.reduce
  rw [Machine.Configuration.popAll?_eq]
  by_cases shallow : production.length ≤ configuration.frames.length
  · simp only [shallow, if_true, headed]
    have constants := (stands.constants.drop production.length).top
    cases found :
        table.gotoAt? (configuration.drop production.length).top
          (.nonterminal head) with
    | none => exact .stuck ⟨rfl, constants⟩
    | some next => exact .goesOn rfl rfl (leads_reduce headed shallow _ _)
  · simp only [shallow, if_false]
    exact .stuck proper

/-- The parser decides on what the machine does next. -/
theorem answers
    (orderly : table.Orderly)
    (stands : Stands met configuration frame)
    {token : Token}
    {rest : List Token}
    (queue : configuration.pending = token :: rest) :
    Answers configuration
      (Machine.step table configuration)
      (frame.parser.decision frame.store
        ⟨table, configuration.top, .token token,
          table.actionAt configuration.top token.kind⟩) := by
  have proper := orderly.actionAt_proper configuration.top token.kind
  have lookahead : configuration.pending.head? = some token := by
    rw [queue]
    rfl
  rw [Machine.step_of_lookahead queue]
  cases entry : table.actionAt configuration.top token.kind with
  | action chosen =>
      rw [entry] at proper
      have unknown :
          (Defect.unknownAction (.action chosen) configuration.top).IsProper :=
        ⟨proper, stands.constants.top⟩
      cases chosen with
      | shift lineage next =>
          cases lineage with
          | direct => exact .goesOn rfl rfl (leads_shift queue _ _)
          | derived => exact .stuck unknown
      | reduce lineage rule =>
          cases rule with
          | production production =>
              cases lineage with
              | direct => exact stands.answers_reduce orderly proper _ _
              | derived => exact .stuck unknown
          | _ => cases proper
      | accept lineage =>
          cases lineage with
          | direct => exact .accepted
          | derived => exact .stuck unknown
      | error lineage =>
          cases lineage with
          | direct =>
              obtain ⟨expected, refused⟩ :=
                stands.refuseToken_eq orderly lookahead
                  (.action (.error .direct))
              simp only [Parser.decision, refused]
              exact .refused rfl lookahead
          | derived => exact .stuck unknown
      | unknown which => exact .stuck unknown
  | _ =>
      rw [entry] at proper
      cases proper

end Stands

end Run

end ShiftReduce
