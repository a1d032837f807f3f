import ShiftReduce.Parser.Step

namespace ShiftReduce

/-!
# Situations of a parse

Of everything that a parser holds, its two stacks and its queue decide how a
parse goes on.  This module says which actions a table sanctions in a situation
(`Situation.Sanctions`), what carrying one out makes of the situation
(`Situation.Moves`), and what is left of it where that breaks off
(`Situation.Remains`).  `Parser.decision` and `Parser.commit` do just that.
-/

/-- The stacks of a parser, top first, and the queue of what is still to come. -/
structure Situation where
  states : List Value
  symbols : List Symbol
  pending : List Value

/-- The situation that a parser is in. -/
def Parser.situation
    (parser : Parser) :
    Situation :=
  ⟨parser.states, parser.symbols, parser.pending⟩

namespace Situation

/--
A table allows an action in a situation: it says so for the top state and the
lookahead, and a reduction leaves the bottom marker alone and has a goto.
-/
inductive Sanctions
    (table : Table)
    (store : Store)
    (situation : Situation) :
    Decision → Prop where
  | shift
      {state token next : Value}
      {kind : String}
      (top : situation.states.head? = some state)
      (lookahead : situation.pending.head? = some token)
      (named : token.kind? = some kind)
      (entry :
        table.action store state (.text kind) =
          .ok (.action (.shift .direct next))) :
      Sanctions table store situation (.shift state token next)
  | reduce
      {state token exposed next : Value}
      {kind : String}
      {production : Production}
      (top : situation.states.head? = some state)
      (lookahead : situation.pending.head? = some token)
      (named : token.kind? = some kind)
      (entry :
        table.action store state (.text kind) =
          .ok (.action (.reduce .direct (.production production))))
      (shallow : production.length < situation.symbols.length)
      (exposes : situation.states[production.length]? = some exposed)
      (goto : table.goto store exposed production.head = .ok next)
      (present : next.isNone = false) :
      Sanctions table store situation (.reduce state production next)
  | accept
      {state token : Value}
      {kind : String}
      (top : situation.states.head? = some state)
      (lookahead : situation.pending.head? = some token)
      (named : token.kind? = some kind)
      (entry :
        table.action store state (.text kind) =
          .ok (.action (.accept .direct))) :
      Sanctions table store situation (.accept state)

/-- Carrying out an action leads from one situation to another. -/
inductive Moves :
    Decision → Situation → Situation → Prop where
  | shift
      {state next first : Value}
      {token : Token}
      {states pending : List Value}
      {symbols : List Symbol} :
      Moves
        (.shift state (.token token) next)
        ⟨states, symbols, first :: pending⟩
        ⟨next :: states, .token token :: symbols, pending⟩
  | reduce
      {state next : Value}
      {production : Production}
      {head : NonTerminal}
      {states pending : List Value}
      {symbols : List Symbol}
      (headed : production.head = .nonterminal head) :
      Moves
        (.reduce state production next)
        ⟨states, symbols, pending⟩
        ⟨next :: states.drop production.length,
          .nonterminal head :: symbols.drop production.length,
          pending⟩
  | accept
      {state : Value}
      {situation : Situation} :
      Moves (.accept state) situation situation

/-- What an action that cannot be carried out to its end leaves of a situation. -/
inductive Remains
    (situation : Situation) :
    Decision → Situation → Prop where
  | shift
      {state token next : Value}
      (noToken : ∀ carried, token ≠ .token carried) :
      Remains situation (.shift state token next) situation
  | reduce
      {state next : Value}
      {production : Production}
      (noHead : ∀ head, production.head ≠ .nonterminal head) :
      Remains situation
        (.reduce state production next)
        ⟨situation.states.drop production.length,
          situation.symbols.drop production.length,
          situation.pending⟩

end Situation

namespace Parser

/-- Whatever a parser selects is the table's entry for its top state and the token. -/
theorem select_inversion
    {store : Store}
    {parser : Parser}
    {table token : Value}
    {selection : Selection}
    (selected : parser.select store table token = .ok selection) :
    ∃ loaded kind,
      table = .table loaded ∧
        token.kind? = some kind ∧
        parser.states.head? = some selection.state ∧
        selection.table = loaded ∧
        selection.token = token ∧
        loaded.action store selection.state (.text kind) =
          .ok selection.action := by
  unfold select topState at selected
  cases states : parser.states with
  | nil =>
      simp [states, bind, Except.bind] at selected
  | cons state rest =>
      cases table with
      | table loaded =>
          cases named : token.kind? with
          | none =>
              simp [states, named, bind, Except.bind] at selected
          | some kind =>
              cases entry : loaded.action store state (.text kind) with
              | error cause =>
                  simp [states, named, entry, bind, Except.bind] at selected
              | ok action =>
                  simp only [states, named, entry, bind, Except.bind, pure,
                    Except.pure, Except.ok.injEq] at selected
                  subst selected
                  exact ⟨loaded, kind, rfl, rfl, rfl, rfl, rfl, entry⟩
      | _ =>
          simp [states, bind, Except.bind] at selected

/-- A reduction that can be carried out is shallow enough and has a goto. -/
theorem nextAfter_inversion
    {store : Store}
    {parser : Parser}
    {selection : Selection}
    {production : Production}
    {next : Value}
    (found : parser.nextAfter store selection production = .ok next) :
    production.length < parser.symbols.length ∧
      ∃ exposed,
        parser.states[production.length]? = some exposed ∧
          selection.table.goto store exposed production.head = .ok next ∧
          next.isNone = false := by
  unfold nextAfter at found
  by_cases deep : parser.symbols.length ≤ production.length
  · simp [deep] at found
  · refine ⟨Nat.lt_of_not_le deep, ?_⟩
    cases exposes : parser.states[production.length]? with
    | none =>
        simp [deep, exposedState, exposes, bind, Except.bind] at found
    | some exposed =>
        cases target : selection.table.goto store exposed production.head with
        | error cause =>
            simp [deep, exposedState, exposes, target, bind, Except.bind]
              at found
        | ok value =>
            cases absent : value.isNone with
            | true =>
                simp [deep, exposedState, exposes, target, absent, bind,
                  Except.bind] at found
            | false =>
                simp [deep, exposedState, exposes, target, absent, bind,
                  Except.bind, pure, Except.pure] at found
                subst found
                exact ⟨exposed, rfl, target, absent⟩

/-- A reduction by something that is no rule is never decided on. -/
theorem refuseReduction_refuses
    (store : Store)
    (parser : Parser)
    (value : Value) :
    ∃ cause, parser.refuseReduction store value = .error cause := by
  unfold refuseReduction
  split
  · exact ⟨_, rfl⟩
  · split
    · cases worded : Fault.ofRendering (store.plain value) with
      | error cause =>
          exact ⟨cause, rfl⟩
      | ok text =>
          exact ⟨_, rfl⟩
    · split
      · exact ⟨_, rfl⟩
      · exact ⟨_, rfl⟩

/-- A refused token leads to no decision. -/
theorem refuseToken_refuses
    (store : Store)
    (selection : Selection) :
    ∃ cause, refuseToken store selection = .error cause := by
  unfold refuseToken
  cases worded :
      Fault.ofRendering
        (Fault.refusal
          (store.resolve selection.token)
          (store.resolve selection.state)) with
  | error cause =>
      exact ⟨cause, rfl⟩
  | ok text =>
      cases diagnosed : selection.table.diagnose store selection.state with
      | error cause =>
          exact ⟨cause, by simp [bind, Except.bind]⟩
      | ok expected =>
          exact ⟨_, rfl⟩

/-- Only direct shifts, reductions by rules and acceptances are ever decided on. -/
theorem decision_inversion
    {store : Store}
    {parser : Parser}
    {selection : Selection}
    {chosen : Decision}
    (decided : parser.decision store selection = .ok chosen) :
    (∃ next,
      selection.action = .action (.shift .direct next) ∧
        chosen = .shift selection.state selection.token next) ∨
    (∃ production next,
      selection.action = .action (.reduce .direct (.production production)) ∧
        parser.nextAfter store selection production = .ok next ∧
        chosen = .reduce selection.state production next) ∨
    (selection.action = .action (.accept .direct) ∧
      chosen = .accept selection.state) := by
  unfold decision at decided
  split at decided
  · next nextState shape =>
      exact .inl ⟨nextState, shape, (Except.ok.inj decided).symm⟩
  · next production shape =>
      cases found : parser.nextAfter store selection production with
      | error cause =>
          simp [found, bind, Except.bind] at decided
      | ok nextState =>
          simp only [found, bind, Except.bind, pure, Except.pure,
            Except.ok.injEq] at decided
          exact .inr (.inl ⟨production, nextState, shape, found, decided.symm⟩)
  · next value _ shape =>
      obtain ⟨cause, refused⟩ := refuseReduction_refuses store parser value
      simp [refused] at decided
  · next shape =>
      exact .inr (.inr ⟨shape, (Except.ok.inj decided).symm⟩)
  · obtain ⟨cause, refused⟩ := refuseToken_refuses store selection
    simp [refused] at decided
  · simp at decided

/-- Every decision is sanctioned by the table that was consulted. -/
theorem decision_sanctioned
    {store : Store}
    {parser : Parser}
    {table : Table}
    {token : Value}
    {rest : List Value}
    {selection : Selection}
    {chosen : Decision}
    (lookahead : parser.pending = token :: rest)
    (selected : parser.select store (.table table) token = .ok selection)
    (decided : parser.decision store selection = .ok chosen) :
    parser.situation.Sanctions table store chosen := by
  obtain ⟨loaded, kind, sameTable, named, top, tableSelected,
      tokenSelected, entry⟩ :=
    select_inversion selected
  cases sameTable
  have lookaheadFirst : parser.situation.pending.head? = some token := by
    simp [situation, lookahead]
  rcases decision_inversion decided with
      ⟨next, shape, rfl⟩ | ⟨production, next, shape, found, rfl⟩ |
        ⟨shape, rfl⟩
  · rw [shape] at entry
    rw [tokenSelected]
    exact .shift top lookaheadFirst named entry
  · rw [shape] at entry
    obtain ⟨shallow, exposed, exposes, goto, present⟩ :=
      nextAfter_inversion found
    rw [tableSelected] at goto
    exact .reduce top lookaheadFirst named entry shallow exposes goto present
  · rw [shape] at entry
    exact .accept top lookaheadFirst named entry

/-- Popping frames that are there shortens both stacks alike. -/
theorem popFrames_eq
    (depth : Nat)
    (parser : Parser)
    (statesEnough : depth ≤ parser.states.length)
    (symbolsEnough : depth ≤ parser.symbols.length) :
    popFrames depth parser =
      .ok ()
        { parser with
          states := parser.states.drop depth
          symbols := parser.symbols.drop depth } := by
  induction depth generalizing parser with
  | zero =>
      rfl
  | succ depth inductionHypothesis =>
      rcases parser with
        ⟨registry, table, states, symbols, pending, accepted, ran, verbose⟩
      cases states with
      | nil =>
          simp at statesEnough
      | cons state states =>
          cases symbols with
          | nil =>
              simp at symbolsEnough
          | cons symbol symbols =>
              exact inductionHypothesis
                ⟨registry, table, states, symbols, pending, accepted, ran,
                  verbose⟩
                (Nat.le_of_succ_le_succ statesEnough)
                (Nat.le_of_succ_le_succ symbolsEnough)

/-- A shift of a token pushes the token and the next state, and consumes. -/
theorem commit_shift
    {parser : Parser}
    {first : Value}
    {rest : List Value}
    (lookahead : parser.pending = first :: rest)
    (state next : Value)
    (token : Token) :
    commit (.shift state (.token token) next) parser =
      .ok ()
        { parser with
          states := next :: parser.states
          symbols := .token token :: parser.symbols
          pending := rest } := by
  rcases parser with
    ⟨registry, table, states, symbols, pending, accepted, ran, verbose⟩
  cases lookahead
  rfl

/-- A reduction pops as many frames as the rule is long before it looks at the head. -/
theorem commit_reduce
    {parser : Parser}
    {production : Production}
    (statesEnough : production.length ≤ parser.states.length)
    (symbolsEnough : production.length ≤ parser.symbols.length)
    (state next : Value) :
    commit (.reduce state production next) parser =
      (do
        let symbol ←
          Operation.ofExcept (Symbol.wrapNonterminal production.head)
        pushSymbol symbol
        pushState next)
        { parser with
          states := parser.states.drop production.length
          symbols := parser.symbols.drop production.length } := by
  have popped := popFrames_eq production.length parser statesEnough symbolsEnough
  simp only [commit, bind, EStateM.bind, popped]

/--
Carrying out a sanctioned action moves the situation.  The parser may have been
through other hands since the decision, but its situation is the same.
-/
theorem commit_moves
    {table : Table}
    {store : Store}
    {situation : Situation}
    {chosen : Decision}
    {parser after : Parser}
    (sanctioned : situation.Sanctions table store chosen)
    (same : parser.situation = situation)
    (committed : commit chosen parser = .ok () after) :
    Situation.Moves chosen situation after.situation := by
  subst same
  cases sanctioned with
  | @shift state token next kind top lookahead named entry =>
      obtain ⟨rest, queue⟩ := List.head?_eq_some_iff.mp lookahead
      cases token with
      | token carried =>
          rw [commit_shift queue] at committed
          cases committed
          have shape :
              parser.situation =
                ⟨parser.states, parser.symbols, .token carried :: rest⟩ := by
            exact congrArg (Situation.mk parser.states parser.symbols) queue
          rw [shape]
          exact .shift
      | _ =>
          cases committed
  | @reduce state token exposed next kind production top lookahead named entry
      shallow exposes goto present =>
      have statesEnough : production.length ≤ parser.states.length :=
        Nat.le_of_lt (List.getElem?_eq_some_iff.mp exposes).1
      rw [commit_reduce statesEnough (Nat.le_of_lt shallow)] at committed
      cases headed : production.head with
      | nonterminal head =>
          rw [headed] at committed
          cases committed
          exact .reduce headed
      | _ =>
          rw [headed] at committed
          cases committed
  | accept top lookahead named entry =>
      cases committed
      exact .accept

/-- A sanctioned action breaks off only at what cannot be put on the symbol stack. -/
theorem commit_remains
    {table : Table}
    {store : Store}
    {situation : Situation}
    {chosen : Decision}
    {parser after : Parser}
    {cause : Fault}
    (sanctioned : situation.Sanctions table store chosen)
    (same : parser.situation = situation)
    (broken : commit chosen parser = .error cause after) :
    situation.Remains chosen after.situation := by
  subst same
  cases sanctioned with
  | @shift state token next kind top lookahead named entry =>
      obtain ⟨rest, queue⟩ := List.head?_eq_some_iff.mp lookahead
      cases token with
      | token carried =>
          rw [commit_shift queue] at broken
          cases broken
      | _ =>
          cases broken
          exact .shift (by simp)
  | @reduce state token exposed next kind production top lookahead named entry
      shallow exposes goto present =>
      have statesEnough : production.length ≤ parser.states.length :=
        Nat.le_of_lt (List.getElem?_eq_some_iff.mp exposes).1
      rw [commit_reduce statesEnough (Nat.le_of_lt shallow)] at broken
      cases headed : production.head with
      | nonterminal head =>
          rw [headed] at broken
          cases broken
      | _ =>
          rw [headed] at broken
          cases broken
          exact .reduce (by simp [headed])
  | accept top lookahead named entry =>
      cases broken

end Parser

end ShiftReduce
