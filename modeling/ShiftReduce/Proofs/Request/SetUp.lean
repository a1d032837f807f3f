import ShiftReduce.Proofs.Run.Course

namespace ShiftReduce

/-!
# Setting a parser up

Before it runs, a parser is given listeners, tokens and a table, and is told whether to
print a trace.  `Run.setUp` carries out one of these requests.  It succeeds and changes
the parser as it should, or it fails and leaves a part of the change behind
(`Run.setUp_cases`).  Of requests that all suit, the last of each kind counts, and all
listeners are listed in order: that is the outfit of the parser (`SetUp.outfit`).
-/

/-- What a parser is asked for besides running. -/
inductive SetUp where
  | register (listener : Listener)
  | loadTokens (tokens : Value)
  | loadTable (table : Value)
  | setVerbose (verbose : Bool)

/-- What a parser is asked for. -/
inductive Request where
  | setUp (request : SetUp)
  | run

/-- What observers do in their world when they are handed a symbol table. -/
abbrev Receive (ω : Type) := String → Value → EStateM Fault ω Unit

namespace SetUp

/-- The listener that is to be registered. -/
def listener? :
    SetUp → Option Listener
  | .register listener => some listener
  | _ => none

/-- The value whose members are to be loaded as tokens. -/
def tokens? :
    SetUp → Option Value
  | .loadTokens tokens => some tokens
  | _ => none

/-- The value that is to be loaded as the table. -/
def table? :
    SetUp → Option Value
  | .loadTable table => some table
  | _ => none

/-- Whether a trace is to be printed. -/
def verbose? :
    SetUp → Option Bool
  | .setVerbose verbose => some verbose
  | _ => none

/-- The last of what several requests bring along, if one of them does. -/
def last?
    {α : Type}
    (part : SetUp → Option α)
    (requests : List SetUp) :
    Option α :=
  (requests.filterMap part).getLast?

/-- What a request suits: observers take symbol tables, tokens are members, tables are tables. -/
def Suits
    (store : Store) :
    SetUp → Prop
  | .register listener => ∃ name, listener = .observer name
  | .loadTokens tokens => ∃ members, store.members tokens = .ok members
  | .loadTable table => ∃ loaded, table = .table loaded
  | .setVerbose _ => True

/-- What a request makes of a parser when it succeeds. -/
def change
    (store : Store)
    (parser : Parser) :
    SetUp → Parser
  | .register listener =>
      { parser with registry := parser.registry.add listener }
  | .loadTokens tokens =>
      match store.members tokens with
      | .ok members =>
          { parser with pending := members, symbols := [Parser.bottomMarker] }
      | .error _ => parser
  | .loadTable (.table loaded) =>
      { parser with table := .table loaded, states := [loaded.initial] }
  | .loadTable _ => parser
  | .setVerbose verbose => { parser with verbose := verbose }

/-- What is left of a request that fails: the first half of what it does. -/
def residue
    (parser : Parser) :
    SetUp → Parser
  | .register listener =>
      { parser with registry := parser.registry.add listener }
  | .loadTable table => { parser with table := table }
  | _ => parser

section Last

variable
  {α : Type}
  (part : SetUp → Option α)

@[simp]
theorem last?_nil :
    last? part [] = none :=
  rfl

@[simp]
theorem last?_cons
    (request : SetUp)
    (rest : List SetUp) :
    last? part (request :: rest) = (last? part rest).or (part request) := by
  cases brought : part request with
  | none => simp [last?, brought]
  | some thing =>
      simp only [last?, List.filterMap_cons, brought, List.getLast?_cons]
      cases (rest.filterMap part).getLast? with
      | none => rfl
      | some other => rfl

end Last

/-- The members that a value has, if it has any. -/
def membersOf
    (store : Store)
    (tokens : Value) :
    List Value :=
  match store.members tokens with
  | .ok members => members
  | .error _ => []

/-- The states that a value begins with, if it is a table. -/
def statesOf :
    Value → List Value
  | .table loaded => [loaded.initial]
  | _ => []

/-- A parser as several requests leave it: the last of each kind counts. -/
def outfit
    (store : Store)
    (requests : List SetUp)
    (parser : Parser) :
    Parser where
  registry :=
    { parser.registry with
      listeners := parser.registry.listeners ++ requests.filterMap listener? }
  table := (last? table? requests).getD parser.table
  states := ((last? table? requests).map statesOf).getD parser.states
  symbols :=
    ((last? tokens? requests).map fun _ => [Parser.bottomMarker]).getD
      parser.symbols
  pending := ((last? tokens? requests).map (membersOf store)).getD parser.pending
  accepted := parser.accepted
  ran := parser.ran
  verbose := (last? verbose? requests).getD parser.verbose

theorem outfit_cons
    {store : Store}
    {request : SetUp}
    (suits : request.Suits store)
    (rest : List SetUp)
    (parser : Parser) :
    outfit store (request :: rest) parser =
      outfit store rest (request.change store parser) := by
  cases request with
  | register listener =>
      simp [outfit, change, listener?, table?, tokens?, verbose?, Registry.add]
  | setVerbose verbose =>
      simp only [outfit, change, last?_cons, listener?, table?, tokens?,
        verbose?, List.filterMap_cons, Option.or_none]
      cases last? verbose? rest with
      | none => rfl
      | some other => rfl
  | loadTokens tokens =>
      obtain ⟨members, holds⟩ := suits
      simp only [outfit, change, holds, last?_cons, listener?, table?, tokens?,
        verbose?, List.filterMap_cons, Option.or_none]
      cases last? tokens? rest with
      | none => simp [membersOf, holds]
      | some other => rfl
  | loadTable table =>
      obtain ⟨loaded, rfl⟩ := suits
      simp only [outfit, change, last?_cons, listener?, table?, tokens?,
        verbose?, List.filterMap_cons, Option.or_none]
      cases last? table? rest with
      | none => rfl
      | some other => rfl

/-- The last of what requests bring along was brought by one of them. -/
theorem mem_of_last
    {α : Type}
    {part : SetUp → Option α}
    {requests : List SetUp}
    {thing : α}
    (last : last? part requests = some thing) :
    ∃ request ∈ requests, part request = some thing :=
  List.mem_filterMap.mp (List.mem_of_getLast? last)

/-- Of requests that suit, the last value for a table is one. -/
theorem suits_of_last
    {store : Store}
    {requests : List SetUp}
    {table : Value}
    (suit : ∀ request ∈ requests, request.Suits store)
    (last : last? table? requests = some table) :
    ∃ loaded, table = .table loaded := by
  obtain ⟨request, member, brings⟩ := mem_of_last last
  cases request with
  | loadTable offered =>
      cases brings
      exact suit _ member
  | _ => cases brings

end SetUp

/-- The world once a listener has been handed a symbol table. -/
def Listener.receives
    {ω : Type}
    (receive : Receive ω)
    (symbolTable : Value)
    (world : ω) :
    Listener → ω
  | .stranger _ => world
  | .observer name =>
      match receive name symbolTable world with
      | .ok _ after => after
      | .error _ after => after

namespace Run

variable {ω : Type}

/-- The frame after several requests have been tried in order, whatever came of them. -/
def tryAll
    {ρ : Type}
    (fulfil : ρ → Run ω Unit) :
    List ρ → Frame ω → Frame ω
  | [], frame => frame
  | request :: rest, frame =>
      tryAll fulfil rest (frameAfter (fulfil request) frame)

theorem tryAll_append
    {ρ : Type}
    (fulfil : ρ → Run ω Unit)
    (earlier later : List ρ)
    (frame : Frame ω) :
    tryAll fulfil (earlier ++ later) frame =
      tryAll fulfil later (tryAll fulfil earlier frame) := by
  induction earlier generalizing frame with
  | nil => rfl
  | cons request rest inductionHypothesis => exact inductionHypothesis _

/-- Let something happen in the world of the observers. -/
def inWorld
    {α : Type}
    (deed : EStateM Fault ω α) :
    Run ω α :=
  fun frame =>
    match deed frame.world with
    | .ok result world => .ok result { frame with world := world }
    | .error cause world => .error (.fault cause) { frame with world := world }

/-- Carry out a request to set the parser up. -/
def setUp
    (receive : Receive ω) :
    SetUp → Run ω Unit
  | .register listener => do
      let recipient ← operate (Parser.register listener)
      let current ← parser
      inWorld (receive recipient current.registry.symbolTable)
  | .loadTokens tokens => do
      let held ← store
      operate (Parser.loadTokens held tokens)
  | .loadTable table => operate (Parser.loadTable table)
  | .setVerbose verbose =>
      operate (modify fun parser => { parser with verbose := verbose })

/-- The world after a request: only registering a listener has an effect on it. -/
def worldAfter
    (receive : Receive ω)
    (request : SetUp)
    (frame : Frame ω) :
    ω :=
  match request.listener? with
  | some listener =>
      listener.receives receive frame.parser.registry.symbolTable frame.world
  | none => frame.world

/-- The ways in which a request to set the parser up can end. -/
theorem setUp_cases
    (receive : Receive ω)
    (request : SetUp)
    (frame : Frame ω) :
    (request.Suits frame.store ∧
      setUp receive request frame =
        .ok ()
          { frame with
            parser := request.change frame.store frame.parser
            world := worldAfter receive request frame }) ∨
    (∃ cause,
      setUp receive request frame =
        .error (.fault cause)
          { frame with
            parser := request.residue frame.parser
            world := worldAfter receive request frame }) := by
  cases request with
  | setVerbose verbose => exact .inl ⟨trivial, rfl⟩
  | loadTable table =>
      cases table with
      | table loaded => exact .inl ⟨⟨loaded, rfl⟩, rfl⟩
      | _ => exact .inr ⟨_, rfl⟩
  | loadTokens tokens =>
      have unfolded :
          setUp receive (.loadTokens tokens) frame =
            operate (Parser.loadTokens frame.store tokens) frame :=
        rfl
      cases holds : frame.store.members tokens with
      | ok members =>
          refine .inl ⟨⟨members, holds⟩, ?_⟩
          rw [unfolded]
          simp only [operate, Parser.loadTokens, holds, SetUp.change]
          rfl
      | error cause =>
          refine .inr ⟨frame.store.settle cause, ?_⟩
          rw [unfolded]
          simp only [operate, Parser.loadTokens, holds]
          rfl
  | register listener =>
      cases listener with
      | stranger value => exact .inr ⟨_, rfl⟩
      | observer name =>
          have unfolded :
              setUp receive (.register (.observer name)) frame =
                inWorld (receive name frame.parser.registry.symbolTable)
                  { frame with
                    parser :=
                      { frame.parser with
                        registry :=
                          frame.parser.registry.add (.observer name) } } :=
            rfl
          rw [unfolded]
          cases received :
              receive name frame.parser.registry.symbolTable frame.world with
          | ok result world =>
              refine .inl ⟨⟨name, rfl⟩, ?_⟩
              simp only [inWorld, received, worldAfter, SetUp.listener?,
                Listener.receives, SetUp.change]
          | error cause world =>
              refine .inr ⟨cause, ?_⟩
              simp only [inWorld, received, worldAfter, SetUp.listener?,
                Listener.receives, SetUp.residue]

/-- Setting a parser up has no bearing on whether it has run. -/
theorem setUp_ran
    (receive : Receive ω)
    (request : SetUp)
    (frame : Frame ω) :
    (frameAfter (setUp receive request) frame).parser.ran =
      frame.parser.ran := by
  rcases setUp_cases receive request frame with ⟨suits, ends⟩ | ⟨cause, ends⟩
  · rw [frameAfter_of_ok ends]
    cases request with
    | loadTokens tokens =>
        obtain ⟨members, holds⟩ := suits
        simp only [SetUp.change, holds]
    | loadTable table =>
        obtain ⟨loaded, rfl⟩ := suits
        rfl
    | _ => rfl
  · rw [frameAfter_of_error ends]
    cases request <;> rfl

/-- A request that succeeds suits, and changes the parser as it should. -/
theorem setUp_ok
    {receive : Receive ω}
    {request : SetUp}
    {frame after : Frame ω}
    (succeeds : setUp receive request frame = .ok () after) :
    request.Suits frame.store ∧
      after =
        { frame with
          parser := request.change frame.store frame.parser
          world := worldAfter receive request frame } := by
  rcases setUp_cases receive request frame with ⟨suits, ends⟩ | ⟨cause, ends⟩
  · rw [ends] at succeeds
    cases succeeds
    exact ⟨suits, rfl⟩
  · rw [ends] at succeeds
    cases succeeds

/-- A request that fails leaves its residue. -/
theorem setUp_error
    {receive : Receive ω}
    {request : SetUp}
    {frame after : Frame ω}
    {halt : Halt}
    (fails : setUp receive request frame = .error halt after) :
    after =
      { frame with
        parser := request.residue frame.parser
        world := worldAfter receive request frame } := by
  rcases setUp_cases receive request frame with ⟨suits, ends⟩ | ⟨cause, ends⟩
  · rw [ends] at fails
    cases fails
  · rw [ends] at fails
    cases fails
    rfl

end Run

end ShiftReduce
