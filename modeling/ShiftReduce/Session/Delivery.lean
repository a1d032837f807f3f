import ShiftReduce.Session.View

namespace ShiftReduce

/-!
# Delivering events in a session

What the observers of a session do with events.  A recorder logs the event and
then follows its script; the function that performs scripted steps is handed
in.  A collector keeps the rules of reductions.  A symbol recorder enters names
into its symbol table.
-/

namespace Session

/-- An activity in a session. -/
abbrev Deed := Activity Session

/-- Go on with a result, or fail with its fault, worded as things stand. -/
def demand
    {α : Type} :
    Except Fault α → Deed α
  | .ok result => pure result
  | .error cause => do
      let session ← get
      throw (.fault (session.store.settle cause))

/-- Go on with something in texts, or fail with its misfit. -/
def demandText
    {α : Type}
    (rendering : Except Misfit α) :
    Deed α :=
  demand (Fault.ofRendering rendering)

/-- Do something in the session's workshop. -/
def inWorkshop
    {α : Type}
    (assembly : Assembly α) :
    Deed α :=
  fun session =>
    match assembly session.workshop with
    | .ok result workshop => .ok result { session with workshop := workshop }
    | .error cause workshop =>
        .error (.fault cause) { session with workshop := workshop }

/-- Apply an operation to one of the parsers. -/
def operate
    {α : Type}
    (name : String)
    (operation : Operation α) :
    Deed α :=
  fun session =>
    match operation (session.parser name) with
    | .ok result parser => .ok result (session.putParser name parser)
    | .error cause parser => demand (.error cause) (session.putParser name parser)

/-- Let a deed of the surrounding session take place while a parser is at work. -/
def duringRun
    {α : Type}
    (name : String)
    (deed : Deed α) :
    Run Session α :=
  fun frame =>
    match deed (ofFrame name frame) with
    | .ok result session => .ok result (session.frame name)
    | .error halt session => .error halt (session.frame name)

/-- Let a parser of the session work. -/
def asRun
    {α : Type}
    (name : String)
    (run : Run Session α) :
    Deed α :=
  fun session =>
    match run (session.frame name) with
    | .ok result frame => .ok result (ofFrame name frame)
    | .error halt frame => .error halt (ofFrame name frame)

/-- Do something, and keep a fault as a result. -/
def attempt
    {α : Type}
    (deed : Deed α) :
    Deed (Except Fault α) :=
  fun session =>
    match deed session with
    | .ok result after => .ok (.ok result) after
    | .error (.fault cause) after => .ok (.error cause) after
    | .error .outOfSteps after => .error .outOfSteps after

/-- Add a row to the log. -/
def record
    (row : LogRow) :
    Deed Unit :=
  modify fun session => { session with log := row :: session.log }

/-- The observer of a name. -/
def observer
    (name : String) :
    Deed Observer := do
  let session ← get
  demand
    (match session.observers.lookup name with
      | some found => .ok found
      | none => .error (.unknownName name))

/-- Hand a symbol table to an observer. -/
def giveSymbolTable
    (name : String)
    (symbolTable : Value) :
    Deed Unit := do
  let recipient ← observer name
  modify fun session =>
    session.putObserver name { recipient with symbolTable := symbolTable }

/-- Change a symbol table, if it is one that can be changed; only the store is affected. -/
def changeSymbolTable
    (symbolTable : Value)
    (change : Store → Value → Except Fault Value) :
    Deed Unit := do
  let session ← get
  let store := session.store
  let content ← demand (change store (store.lookAt symbolTable))
  match symbolTable with
  | .shared _ place => set (session.putStore (store.replace place content))
  | _ => pure ()

/-- Put the outcome of a scripted step into texts. -/
def outcomeAccount :
    Except Fault Report → Deed (Except Account Report)
  | .ok report => return .ok report
  | .error cause => do
      let account ← demandText cause.account
      return .error account

/-- Take a scripted step on behalf of a recorder. -/
def followStep
    (perform : Step → Deed Report)
    (name : String)
    (step : Step) :
    Deed Unit := do
  if step.caught then
    let outcome ← attempt (perform step)
    let outcome ← outcomeAccount outcome
    record (.did name outcome)
  else
    let _ ← perform step

/-- Take scripted steps in order. -/
def followSteps
    (perform : Step → Deed Report)
    (name : String) :
    List Step → Deed Unit
  | [] => pure ()
  | step :: rest => do
      followStep perform name step
      followSteps perform name rest

/-- What a recorder sees of the parser that it watches, if it watches one. -/
def snapshotOf :
    Option String → Deed (Option Snapshot)
  | none => return none
  | some watched => do
      let session ← get
      let taken ← demandText ((session.parser watched).snapshot session.store)
      return some taken

/-- A recorder logs an event, counts it, and follows its script. -/
def tellRecorder
    (perform : Step → Deed Report)
    (name : String)
    (event : Event)
    (self : Observer)
    (recorder : Recorder) :
    Deed Unit := do
  let session ← get
  let words ← demandText (event.words session.store)
  let snapshot ← snapshotOf recorder.snapshotOf
  record (.heard name words snapshot)
  modify fun session =>
    session.putObserver name
      { self with
        role := .recorder { recorder with heard := recorder.heard + 1 } }
  followSteps perform name ((recorder.script.lookup recorder.heard).getD [])

/-- A symbol recorder numbers the names it sees, and notes the accepting state. -/
def tellSymbolRecorder
    (symbolTable : Value) :
    Event → Deed Unit
  | .shift _ token =>
      match token.kind? with
      | none => demand (.error (token.lacks "kind"))
      | some kind =>
          if kind = "id" then
            changeSymbolTable symbolTable fun store content =>
              match token with
              | .token carried => content.numberKey store carried.value
              | other => .error (other.lacks "value")
          else
            pure ()
  | .reduce .. => pure ()
  | .accept state =>
      changeSymbolTable symbolTable fun store content =>
        content.assignItem store (.text "<accepted>") state

/-- Deliver an event to an observer. -/
def deliver
    (perform : Step → Deed Report)
    (name : String)
    (event : Event) :
    Deed Unit := do
  let self ← observer name
  match self.role with
  | .recorder recorder => tellRecorder perform name event self recorder
  | .collector productions =>
      match event with
      | .reduce _ production =>
          modify fun session =>
            session.putObserver name
              { self with role := .collector (productions ++ [production]) }
      | _ => pure ()
  | .symbolRecorder => tellSymbolRecorder self.symbolTable event

end Session

end ShiftReduce
