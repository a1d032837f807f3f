import ShiftReduce.Proofs.Parser.Legible
import ShiftReduce.Proofs.Run.Forest
import ShiftReduce.Proofs.Table.Look

namespace ShiftReduce

/-!
# What a parser does next, up to what does not matter

A parser with its table comes to a verdict: an action that it carries out next, or the
fault that it ends with (`Parser.verdict`).  Two parsers with the same states, as many
symbols and lookaheads of one kind come to the same verdict, as long as their table looks
the same to them (`Parser.verdict_alike`).  What else there is to tokens may be hidden
behind a `Mask`.
-/

/-- A way to disregard something about tokens, though never their kinds. -/
structure Mask where
  hide : Token → Token
  kind_hide : ∀ token, (hide token).kind = token.kind

namespace Mask

/-- Nothing is disregarded. -/
def nothing : Mask :=
  ⟨id, fun _ => rfl⟩

/-- Everything about tokens is disregarded but their kinds. -/
def allButKinds : Mask :=
  ⟨fun token => .ofKind token.kind, fun _ => rfl⟩

/-- A value with a token masked. -/
def value
    (mask : Mask) :
    Value → Value
  | .token token => .token (mask.hide token)
  | other => other

/-- A symbol with a token masked. -/
def symbol
    (mask : Mask) :
    Symbol → Symbol
  | .token token => .token (mask.hide token)
  | other => other

/-- A decision with the token of a shift masked. -/
def decision
    (mask : Mask) :
    Decision → Decision
  | .shift state token next => .shift state (mask.value token) next
  | other => other

/-- A fault with the token of a refusal masked. -/
def fault
    (mask : Mask) :
    Fault → Fault
  | .unexpectedToken state token expected =>
      .unexpectedToken state (mask.value token) expected
  | other => other

/-- A halt with the token of a refusal masked. -/
def halt
    (mask : Mask) :
    Halt → Halt
  | .fault cause => .fault (mask.fault cause)
  | .outOfSteps => .outOfSteps

/-- A decision or a fault with its token masked. -/
def verdict
    (mask : Mask) :
    Except Fault Decision → Except Fault Decision
  | .ok chosen => .ok (mask.decision chosen)
  | .error cause => .error (mask.fault cause)

theorem nothing_value
    (value : Value) :
    nothing.value value = value := by
  cases value <;> rfl

@[simp]
theorem nothing_symbol :
    nothing.symbol = id := by
  funext symbol
  cases symbol <;> rfl

@[simp]
theorem nothing_decision :
    nothing.decision = id := by
  funext decision
  cases decision <;> simp [Mask.decision, nothing_value]

@[simp]
theorem nothing_halt :
    nothing.halt = id := by
  funext halt
  cases halt with
  | outOfSteps => rfl
  | fault cause => cases cause <;> simp [Mask.halt, Mask.fault, nothing_value]

/-- Masked or not, a decision ends a run or does not. -/
@[simp]
theorem progress_decision
    (mask : Mask)
    (decision : Decision) :
    (mask.decision decision).progress = decision.progress := by
  cases decision <;> rfl

end Mask

namespace Parser

/-- The action that a parser carries out next, or the fault that it ends with. -/
def nextStep
    (store : Store)
    (table : Table)
    (parser : Parser) :
    Except Fault Decision :=
  match parser.pending with
  | [] => do
      let state ← parser.topState
      .error (.malformedTable (.inputExhausted state))
  | token :: _ => do
      let selection ← parser.select store (.table table) token
      parser.decision store selection

/-- What a parser does next, with a fault as it shows when it arises. -/
def verdict
    (store : Store)
    (table : Table)
    (parser : Parser) :
    Except Fault Decision :=
  store.report (parser.nextStep store table)

section Alike

variable
  {mask : Mask}
  {table : Table}
  {first second : Store}
  {parser other : Parser}
  {state : Value}
  {token otherToken : Token}

/-- Faults that show alike are the same verdict, whatever is masked. -/
theorem alike_of_settle
    {cause otherCause : Fault}
    (same : second.settle otherCause = first.settle cause) :
    mask.verdict (second.report (.error otherCause)) =
      mask.verdict (first.report (.error cause)) := by
  rw [Store.report_error, Store.report_error, same]

/-- The state after a reduction is the same for the same states. -/
theorem nextAfter_alike
    {column : Value}
    {production : Production}
    (proper : table.HasProperHeads)
    (look : table.SameLook first second)
    (states : other.states = parser.states)
    (symbols : other.symbols.length = parser.symbols.length)
    (known : ∀ state ∈ parser.states, table.HasState state)
    (topKnown : table.HasState state)
    (found :
      table.action first state column =
        .ok (.action (.reduce .direct (.production production))))
    (lookahead otherLookahead action : Value) :
    second.report
        (other.nextAfter second ⟨table, state, otherLookahead, action⟩
          production) =
      first.report
        (parser.nextAfter first ⟨table, state, lookahead, action⟩
          production) := by
  obtain ⟨head, headed⟩ := proper.headed found
  unfold nextAfter
  rw [symbols]
  by_cases deep : parser.symbols.length ≤ production.length
  · simp only [deep, if_true, Store.report_error, Except.error.injEq]
    apply Store.settle_eq_of_resolveDefect
    simp only [Store.resolveDefect, look.rule found,
      look.states state topKnown]
  · simp only [deep, if_false, exposedState, states]
    cases exposes : parser.states[production.length]? with
    | none =>
        exact congrArg Except.error (Store.settle_eq_of_resolveFault rfl)
    | some exposed =>
        have exposedKnown := known exposed (List.mem_of_getElem? exposes)
        simp only [headed, bind, Except.bind]
        rcases Store.report_cases (look.gotos exposed exposedKnown head) with
            ⟨next, answer, otherAnswer⟩ |
              ⟨cause, otherCause, answer, otherAnswer, same⟩
        · rw [answer, otherAnswer]
          cases absent : next.isNone with
          | false => simp [absent, pure, Except.pure]
          | true =>
              simp only [absent, if_true, Store.report_error,
                Except.error.injEq]
              apply Store.settle_eq_of_resolveDefect
              simp only [Store.resolveDefect,
                look.states exposed exposedKnown,
                Store.resolve_constant _
                  (show (Value.nonterminal head).isConstant = true from rfl)]
        · rw [answer, otherAnswer]
          exact congrArg Except.error same

/-- A reduction by what is no rule is refused alike for the same states. -/
theorem refuseReduction_alike
    {column value : Value}
    (look : table.SameLook first second)
    (states : other.states = parser.states)
    (symbols : other.symbols.length = parser.symbols.length)
    (found :
      table.action first state column =
        .ok (.action (.reduce .direct value))) :
    second.report (other.refuseReduction second value) =
      first.report (parser.refuseReduction first value) := by
  obtain ⟨length, plain⟩ := look.reduction found
  have atoms {cause : Fault}
      (same : second.resolveFault cause = first.resolveFault cause) :
      second.report (.error cause : Except Fault Decision) =
        first.report (.error cause) :=
    congrArg Except.error (Store.settle_eq_of_resolveFault same)
  unfold refuseReduction
  rw [length, plain, symbols, states]
  cases first.length? value with
  | none => exact atoms rfl
  | some depth =>
      dsimp only
      split
      · cases first.plain value with
        | ok text => exact atoms rfl
        | error misfit => exact atoms rfl
      · split
        · exact atoms rfl
        · exact atoms rfl

/-- Tokens that look the same behind the mask are refused alike in the same state. -/
theorem refuseToken_alike
    (look : table.SameLook first second)
    (topKnown : table.HasState state)
    (plain : first.IsPlain token.value)
    (otherPlain : second.IsPlain otherToken.value)
    (masked :
      mask.value (second.resolve (.token otherToken)) =
        mask.value (first.resolve (.token token)))
    (action : Value) :
    mask.verdict
        (second.report
          (refuseToken second ⟨table, state, .token otherToken, action⟩)) =
      mask.verdict
        (first.report
          (refuseToken first ⟨table, state, .token token, action⟩)) := by
  obtain ⟨text, shows⟩ := Store.shown_token plain
  obtain ⟨otherText, showsOther⟩ := Store.shown_token otherPlain
  have sameState := look.states state topKnown
  unfold refuseToken
  simp only [Fault.refusal, shows, showsOther, sameState, bind, Except.bind]
  cases showsState : (first.resolve state).shown with
  | error misfit => exact alike_of_settle (Store.settle_eq_of_resolveFault rfl)
  | ok stateText =>
      have sameKinds := look.kinds state topKnown
      simp only [Table.shownKinds] at sameKinds
      simp only [pure, Except.pure, Fault.ofRendering]
      cases diagnosed : table.diagnose first state with
      | error cause =>
          cases diagnosedOther : table.diagnose second state with
          | ok otherKinds => simp [diagnosed, diagnosedOther, Except.map] at sameKinds
          | error otherCause =>
              simp only [diagnosed, diagnosedOther, Except.map] at sameKinds
              exact alike_of_settle (Except.error.inj sameKinds)
      | ok kinds =>
          cases diagnosedOther : table.diagnose second state with
          | error otherCause => simp [diagnosed, diagnosedOther, Except.map] at sameKinds
          | ok otherKinds =>
              simp only [diagnosed, diagnosedOther, Except.map] at sameKinds
              have showsOtherState :
                  (second.resolve state).shown = .ok stateText := by
                rw [sameState, showsState]
              rw [Store.report_error, Store.report_error,
                Store.settle_refused shows showsState,
                Store.settle_refused showsOther showsOtherState]
              simp only [Mask.verdict, Mask.fault, masked, sameState,
                Except.ok.inj sameKinds]

/-- The action of a table leads to the same decision or shows the same fault. -/
theorem decision_alike
    {kind : String}
    {action : Value}
    (proper : table.HasProperHeads)
    (look : table.SameLook first second)
    (states : other.states = parser.states)
    (symbols : other.symbols.length = parser.symbols.length)
    (known : ∀ state ∈ parser.states, table.HasState state)
    (topKnown : table.HasState state)
    (found : table.action first state (.text kind) = .ok action)
    (sameToken : mask.hide otherToken = mask.hide token)
    (plain : first.IsPlain token.value)
    (otherPlain : second.IsPlain otherToken.value)
    (masked :
      mask.value (second.resolve (.token otherToken)) =
        mask.value (first.resolve (.token token))) :
    mask.verdict
        (second.report
          (other.decision second ⟨table, state, .token otherToken, action⟩)) =
      mask.verdict
        (first.report
          (parser.decision first ⟨table, state, .token token, action⟩)) := by
  unfold decision
  dsimp only
  split
  · next next =>
      simp only [Store.report_ok, Mask.verdict, Mask.decision, Mask.value,
        sameToken]
  · next production =>
      have same :=
        nextAfter_alike proper look states symbols known topKnown found
          (.token token) (.token otherToken)
          (.action (.reduce .direct (.production production)))
      rcases Store.report_cases same with
          ⟨next, answer, otherAnswer⟩ |
            ⟨cause, otherCause, answer, otherAnswer, settled⟩
      · rw [answer, otherAnswer]
        rfl
      · rw [answer, otherAnswer]
        exact alike_of_settle settled
  · next value _ =>
      rw [refuseReduction_alike look states symbols found]
  · rfl
  · exact refuseToken_alike look topKnown plain otherPlain masked _
  · apply alike_of_settle
    apply Store.settle_eq_of_resolveDefect
    simp only [Store.resolveDefect, look.answer found,
      look.states state topKnown]

/--
Two parsers come to the same verdict.

They have the same states, all of them of the table, and as many symbols, and the table
looks the same to them; and either nothing is left to come, or what comes next are plain
tokens that cannot be told apart behind the mask.
-/
theorem verdict_alike
    (proper : table.HasProperHeads)
    (look : table.SameLook first second)
    (states : other.states = parser.states)
    (symbols : other.symbols.length = parser.symbols.length)
    (known : ∀ state ∈ parser.states, table.HasState state)
    (pending :
      (parser.pending = [] ∧ other.pending = []) ∨
        ∃ token rest otherToken otherRest,
          parser.pending = .token token :: rest ∧
            other.pending = .token otherToken :: otherRest ∧
            mask.hide otherToken = mask.hide token ∧
            first.IsPlain token.value ∧
            second.IsPlain otherToken.value ∧
            mask.value (second.resolve (.token otherToken)) =
              mask.value (first.resolve (.token token))) :
    mask.verdict (other.verdict second table) =
      mask.verdict (parser.verdict first table) := by
  unfold verdict nextStep select topState
  rw [states]
  rcases pending with
      ⟨nothing, otherNothing⟩ |
        ⟨token, rest, otherToken, otherRest, lookahead, otherLookahead,
          sameToken, plain, otherPlain, masked⟩
  · rw [nothing, otherNothing]
    cases stack : parser.states with
    | nil => exact alike_of_settle (Store.settle_eq_of_resolveFault rfl)
    | cons state below =>
        have topKnown := known state (by rw [stack]; exact List.mem_cons_self)
        apply alike_of_settle
        apply Store.settle_eq_of_resolveDefect
        simp only [Store.resolveDefect, look.states state topKnown]
  · rw [lookahead, otherLookahead]
    cases stack : parser.states with
    | nil => exact alike_of_settle (Store.settle_eq_of_resolveFault rfl)
    | cons state below =>
        have topKnown := known state (by rw [stack]; exact List.mem_cons_self)
        have sameKind : otherToken.kind = token.kind := by
          rw [← mask.kind_hide, sameToken, mask.kind_hide]
        simp only [Value.kind?, sameKind, bind, Except.bind]
        rcases Store.report_cases (look.actions state topKnown token.kind) with
            ⟨action, answer, otherAnswer⟩ |
              ⟨cause, otherCause, answer, otherAnswer, settled⟩
        · rw [answer, otherAnswer]
          exact decision_alike proper look states symbols known topKnown answer
            sameToken plain otherPlain masked
        · rw [answer, otherAnswer]
          exact alike_of_settle settled

end Alike

end Parser

end ShiftReduce
