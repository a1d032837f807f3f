import ShiftReduce.Parser.Step
import ShiftReduce.Parser.Trace

namespace ShiftReduce

/-!
# Running a parser

A run repeats actions until the table accepts or something is at fault.  It
works on a frame: the parser, the store of what is held in common, the trace
printed so far with the newest block first, and the world in which observers
live.  Observers get the whole frame, so they may read the parser, load it anew,
register further observers, change what lies in the store, or change anything in
their world.

The table is the one that was loaded when the run began.  Everything else is
looked up afresh on every turn.  Nothing bounds the number of turns of a run,
so a run is granted a number of them, and says so when they are used up.
-/

/-- A parser at work, with the store, its trace and the world of its observers. -/
structure Frame (ω : Type) where
  parser : Parser
  store : Store
  trace : List TraceBlock
  world : ω

/-- The blocks printed so far, in the order of their printing. -/
def Frame.printed
    {ω : Type}
    (frame : Frame ω) :
    List TraceBlock :=
  frame.trace.reverse

/-- An activity of a parser at work. -/
abbrev Run (ω : Type) := Activity (Frame ω)

/-- How an event reaches the observer of a given name. -/
abbrev Deliver (ω : Type) := String → Event → Run ω Unit

/-- Whether a run goes on after a turn. -/
inductive Progress where
  | running
  | finished
  deriving Repr, DecidableEq

namespace Run

variable {ω α : Type}

/-- The parser as it is now. -/
def parser : Run ω Parser := do
  return (← get).parser

/-- The store as it is now. -/
def store : Run ω Store := do
  return (← get).store

/-- Fail with a fault, worded as things stand. -/
def fail
    (cause : Fault) :
    Run ω α := do
  let current ← store
  throw (.fault (current.settle cause))

/-- Go on with a result, or fail with its fault. -/
def demand :
    Except Fault α → Run ω α
  | .ok result => pure result
  | .error cause => fail cause

/-- Apply an operation to the parser at work. -/
def operate
    (operation : Operation α) :
    Run ω α :=
  fun frame =>
    match operation frame.parser with
    | .ok result parser => .ok result { frame with parser := parser }
    | .error cause parser => fail cause { frame with parser := parser }

/-- Add a block to the trace, as far as it can be printed. -/
def print
    (block : TraceBlock) :
    Run ω Unit := do
  let current ← store
  let block := block.resolve current
  modify fun frame => { frame with trace := block :: frame.trace }
  match block.misfit? with
  | none => pure ()
  | some misfit => throw (.fault (.misfit misfit))

/-- Show the stacks of the parser if it is verbose. -/
def printStack : Run ω Unit := do
  let current ← parser
  if current.verbose then
    print current.stackBlock

/-- Show the stacks, the lookahead and the selected action if the parser is verbose. -/
def printSelection
    (selection : Selection) :
    Run ω Unit := do
  let current ← parser
  if current.verbose then
    print current.stackBlock
    print (.lookahead selection.token)
    print (.action selection.action)

/-- Tell all listeners that are registered now, in order. -/
def notify
    (deliver : Deliver ω)
    (event : Event) :
    Run ω Unit := do
  let current ← parser
  Listener.tellAll deliver event current.registry.listeners

/-- Tell the observers of a decision, and carry it out. -/
def perform
    (deliver : Deliver ω)
    (decision : Decision) :
    Run ω Progress := do
  notify deliver decision.event
  operate (Parser.commit decision)
  match decision with
  | .shift .. => return .running
  | .reduce .. =>
      printStack
      return .running
  | .accept _ => return .finished

/-- One turn with a given lookahead: consult the table, decide, tell, and act. -/
def turn
    (deliver : Deliver ω)
    (table token : Value) :
    Run ω Progress := do
  let current ← parser
  let held ← store
  let selection ← demand (current.select held table token)
  printSelection selection
  let decision ← demand (current.decision held selection)
  perform deliver decision

/-- The fault of a parser that has run out of tokens. -/
def exhausted : Run ω Unit := do
  let current ← parser
  let state ← demand current.topState
  fail (.malformedTable (.inputExhausted state))

/-- Take turns until the table accepts, for as many turns as are granted. -/
def drive
    (deliver : Deliver ω)
    (table : Value) :
    Nat → Run ω Unit
  | 0 => throw .outOfSteps
  | granted + 1 => do
      let current ← parser
      match current.pending with
      | [] => exhausted
      | token :: _ =>
          match ← turn deliver table token with
          | .finished => return ()
          | .running => drive deliver table granted

/-- Run the parser, provided that it is loaded and has not run before. -/
def start
    (deliver : Deliver ω)
    (granted : Nat) :
    Run ω Unit := do
  let current ← parser
  if !current.isLoaded then
    fail .notLoaded
  if current.ran then
    fail .alreadyRan
  operate (modify fun parser => { parser with ran := true })
  drive deliver current.table granted

end Run

end ShiftReduce
