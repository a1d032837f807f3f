import ShiftReduce.Session.Delivery

namespace ShiftReduce

/-!
# Performing the steps of a session

`Session.perform` carries out one step.  A step that runs a parser delivers
events to observers, whose scripts may hold further steps, so the definition is
a recursion on how deeply steps may still be nested.

A step first makes the values that its command asks for, and then acts on them.
-/

namespace Session

/-- The rules that a collector has collected. -/
def collected
    (name : String)
    (request : String) :
    Deed (List Value) := do
  let self ← observer name
  match self.role with
  | .collector productions => return productions
  | _ => demand (.error (.missingMember self.typeName request))

/-- The listener that a candidate becomes. -/
def listener :
    Candidate → Deed Listener
  | .observer name => do
      let _ ← observer name
      return .observer name
  | .stranger recipe => do
      let value ← inWorkshop recipe.build
      return .stranger value

/-- Tell the listeners on the registry that belongs to no parser of an event. -/
def notifyRegistry
    (perform : Step → Deed Report)
    (event : Event) :
    Deed Unit := do
  let session ← get
  Listener.tellAll (deliver perform) event session.registry.listeners

/-- Carry out a command, with a way to carry out the steps of scripts. -/
def execute
    (perform : Step → Deed Report)
    (granted : Nat)
    (name : String) :
    Command → Deed Report
  | .register candidate => do
      let listener ← listener candidate
      let recipient ← operate name (Parser.register listener)
      let session ← get
      giveSymbolTable recipient (session.parser name).registry.symbolTable
      return .nothing
  | .loadTokens tokens => do
      let value ← inWorkshop tokens.build
      let session ← get
      operate name (Parser.loadTokens session.store value)
      return .nothing
  | .loadTable table => do
      let value ← inWorkshop table.build
      operate name (Parser.loadTable value)
      return .nothing
  | .run => do
      asRun name
        (Run.start
          (fun listener event => duringRun name (deliver perform listener event))
          granted)
      return .nothing
  | .setVerbose verbose => do
      operate name (modify fun parser => { parser with verbose := verbose })
      return .nothing
  | .look => return .nothing
  | .assignSymbol key value => do
      let value ← inWorkshop value.build
      let key ← inWorkshop key.build
      let session ← get
      changeSymbolTable (session.parser name).registry.symbolTable
        fun store content => content.assignItem store key value
      return .nothing
  | .complain message => demand (.error (.observerFailure message))
  | .listLines collector => do
      let productions ← collected collector "lines"
      let session ← get
      let lines ← demandText (session.store.plainAll productions)
      return .texts lines
  | .listProductions collector => do
      let productions ← collected collector "productions"
      let session ← get
      let texts ← demandText (session.store.shownAll productions)
      return .texts texts
  | .showSymbolTable owner => do
      let self ← observer owner
      let session ← get
      let text ← demandText (session.store.shown self.symbolTable)
      return .text text
  | .giveSymbolTable recipient symbolTable => do
      let _ ← observer recipient
      let value ← inWorkshop symbolTable.build
      giveSymbolTable recipient value
      return .nothing
  | .registryRegister candidate => do
      let listener ← listener candidate
      modify fun session =>
        { session with registry := session.registry.add listener }
      let recipient ← demand listener.recipient
      let session ← get
      giveSymbolTable recipient session.registry.symbolTable
      return .nothing
  | .registryShift state token => do
      let state ← inWorkshop state.build
      let token ← inWorkshop token.build
      notifyRegistry perform (.shift state token)
      return .nothing
  | .registryReduce state production => do
      let state ← inWorkshop state.build
      let production ← inWorkshop production.build
      notifyRegistry perform (.reduce state production)
      return .nothing
  | .registryAccept state => do
      let state ← inWorkshop state.build
      notifyRegistry perform (.accept state)
      return .nothing
  | .registrySymbolTable symbolTable => do
      let value ← inWorkshop symbolTable.build
      modify fun session =>
        { session with
          registry := { session.registry with symbolTable := value } }
      return .nothing

/--
Perform a step, with a number of turns granted to each run, for as many levels
of nesting as are granted.
-/
def perform
    (granted : Nat) :
    (levels : Nat) → Step → Deed Report
  | 0, _ => throw .outOfSteps
  | levels + 1, step =>
      execute (perform granted levels) granted step.parser step.command

/-- How a top-level step ended, in texts. -/
inductive Ending where
  | reported (report : Report)
  | failed (account : Account)
  | outOfSteps

/-- What a top-level step is about: a parser, or the registry that belongs to none. -/
inductive Sight where
  | parser (view : ParserView)
  | registry (view : RegistryView)

/-- What can be seen after a top-level step, rows and printed blocks in order. -/
structure Aftermath where
  ending : Ending
  rows : List LogRow
  trace : List TraceBlock
  sight : Sight

/-- Perform a top-level step with an empty log and an empty trace. -/
def performStep
    (granted : Nat)
    (step : Step)
    (session : Session) :
    Except Halt Report × Session :=
  match perform granted session.nesting step
      { session with log := [], trace := [] } with
  | .ok report after => (.ok report, after)
  | .error halt after => (.error halt, after)

/-- Put the way a top-level step ended into texts. -/
def ending :
    Except Halt Report → Except Misfit Ending
  | .ok report => .ok (.reported report)
  | .error (.fault cause) => do
      let account ← cause.account
      return .failed account
  | .error .outOfSteps => .ok .outOfSteps

/-- What a step is about, as it can be seen now. -/
def sight
    (session : Session)
    (step : Step) :
    Except Misfit Sight := do
  if step.command.isForRegistry then
    let view ← session.registry.view session.store
    return .registry view
  else
    let view ← (session.parser step.parser).view session.store
    return .parser view

/--
Perform top-level steps in order; a fault ends only its own step.

A misfit in what is to be seen after a step leaves nothing to be seen at all.
-/
def performSteps
    (granted : Nat) :
    List Step → Session → Except Misfit (List Aftermath)
  | [], _ => .ok []
  | step :: rest, session => do
      let (outcome, after) := performStep granted step session
      let ended ← ending outcome
      let seen ← after.sight step
      let aftermaths ← performSteps granted rest after
      return ⟨ended, after.log.reverse, after.trace.reverse, seen⟩ :: aftermaths

end Session

end ShiftReduce
