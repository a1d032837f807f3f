import ShiftReduce.Parser.Basic

namespace ShiftReduce

/-!
# One action of a parser

An action falls into three parts, so that observers can be told in between.
`Parser.select` consults the table, `Parser.decision` makes sure that the action
can be carried out as things stand, and `Parser.commit` carries it out.  The
first two only look; whatever they refuse leaves the parser as it is.  States
and columns are compared as the store has them at the moment.
-/

/-- What a table says about a parser's state and lookahead. -/
structure Selection where
  table : Table
  state : Value
  token : Value
  action : Value

/-- An action that can be carried out. -/
inductive Decision where
  | shift (state token nextState : Value)
  | reduce (state : Value) (production : Production) (nextState : Value)
  | accept (state : Value)

/-- What observers hear of a decision. -/
def Decision.event :
    Decision → Event
  | .shift state token _ => .shift state token
  | .reduce state production _ => .reduce state (.production production)
  | .accept state => .accept state

namespace Parser

/-- The state on top of the stack. -/
def topState
    (parser : Parser) :
    Except Fault Value :=
  match parser.states with
  | [] => .error .indexOutOfRange
  | state :: _ => .ok state

/-- Consult a table about the top state and a lookahead. -/
def select
    (store : Store)
    (parser : Parser)
    (table token : Value) :
    Except Fault Selection := do
  let state ← parser.topState
  match table with
  | .table loaded =>
      match token.kind? with
      | some kind =>
          let action ← loaded.action store state (.text kind)
          return ⟨loaded, state, token, action⟩
      | none => .error (token.lacks "kind")
  | other => .error (other.lacks "action")

/-- The state that `depth` pops would expose. -/
def exposedState
    (parser : Parser)
    (depth : Nat) :
    Except Fault Value :=
  match parser.states[depth]? with
  | some state => .ok state
  | none => .error .indexOutOfRange

/-- The state to go to after a reduction, looked up before anything is popped. -/
def nextAfter
    (store : Store)
    (parser : Parser)
    (selection : Selection)
    (production : Production) :
    Except Fault Value := do
  if parser.symbols.length ≤ production.length then
    .error (.malformedTable
      (.tooDeep production (parser.symbols.length - 1) selection.state))
  else
    let exposed ← parser.exposedState production.length
    let nextState ← selection.table.goto store exposed production.head
    if nextState.isNone then
      .error (.malformedTable (.missingGoto production.head exposed))
    else
      return nextState

/--
The complaint about a reduction by something that is no rule.

What has a length is used like a rule until its head is asked for; before that,
a reduction that goes too deep is worded already.
-/
def refuseReduction
    (store : Store)
    (parser : Parser)
    (value : Value) :
    Except Fault Decision :=
  match store.length? value with
  | none => .error (.noLength value.typeName)
  | some depth =>
      if parser.symbols.length ≤ depth then do
        let _ ← Fault.ofRendering (store.plain value)
        .error (value.lacks "head")
      else if parser.states.length ≤ depth then
        .error .indexOutOfRange
      else
        .error (value.lacks "head")

/-- The complaint about a refused token, which is worded before it is diagnosed. -/
def refuseToken
    (store : Store)
    (selection : Selection) :
    Except Fault Decision := do
  let _ ←
    Fault.ofRendering
      (Fault.refusal
        (store.resolve selection.token)
        (store.resolve selection.state))
  let expected ← selection.table.diagnose store selection.state
  .error (.unexpectedToken selection.state selection.token expected)

/-- The selected action, once it is sure that it can be carried out. -/
def decision
    (store : Store)
    (parser : Parser)
    (selection : Selection) :
    Except Fault Decision :=
  match selection.action with
  | .action (.shift .direct nextState) =>
      .ok (.shift selection.state selection.token nextState)
  | .action (.reduce .direct (.production production)) => do
      let nextState ← parser.nextAfter store selection production
      return .reduce selection.state production nextState
  | .action (.reduce .direct value) => parser.refuseReduction store value
  | .action (.accept .direct) => .ok (.accept selection.state)
  | .action (.error .direct) => refuseToken store selection
  | action =>
      .error (.malformedTable (.unknownAction action selection.state))

/-- Push a symbol. -/
def pushSymbol
    (symbol : Symbol) :
    Operation Unit :=
  modify fun parser => { parser with symbols := symbol :: parser.symbols }

/-- Push a state. -/
def pushState
    (state : Value) :
    Operation Unit :=
  modify fun parser => { parser with states := state :: parser.states }

/-- Pop a state. -/
def popState : Operation Unit := do
  match (← get).states with
  | [] => throw .popFromEmptyStack
  | _ :: rest => modify fun parser => { parser with states := rest }

/-- Pop a symbol. -/
def popSymbol : Operation Unit := do
  match (← get).symbols with
  | [] => throw .popFromEmptyStack
  | _ :: rest => modify fun parser => { parser with symbols := rest }

/-- Take the lookahead off the queue. -/
def consume : Operation Unit := do
  match (← get).pending with
  | [] => throw .popFromEmptyQueue
  | _ :: rest => modify fun parser => { parser with pending := rest }

/-- Pop a number of states and as many symbols, in turns. -/
def popFrames :
    Nat → Operation Unit
  | 0 => pure ()
  | depth + 1 => do
      popState
      popSymbol
      popFrames depth

/--
Carry out an action.

Observers may have loaded the parser anew in the meantime; the action then
applies to what is there now.
-/
def commit :
    Decision → Operation Unit
  | .shift _ token nextState => do
      let symbol ← Operation.ofExcept (Symbol.wrapToken token)
      pushSymbol symbol
      pushState nextState
      consume
  | .reduce _ production nextState => do
      popFrames production.length
      let symbol ← Operation.ofExcept (Symbol.wrapNonterminal production.head)
      pushSymbol symbol
      pushState nextState
  | .accept _ =>
      modify fun parser => { parser with accepted := true }

end Parser

end ShiftReduce
