import ShiftReduce.Parser.Run
import ShiftReduce.Recipe.Build

namespace ShiftReduce

/-!
# Sessions

A session is a small world with several parsers, named observers, a registry
that belongs to no parser, and the workshop in which their values are made.
Steps act on it one at a time.  Observers of one sort follow a script of such
steps when they are told of an event, so a step may take place in the middle of
a run.

Everything that happens is kept: what observers heard, in the session's log,
and what verbose parsers printed, in its trace.  Both have the newest first.
The log is kept in texts, since what it tells of may change later on.
-/

/-- Things by their names, in the order in which they were named. -/
abbrev Directory (α : Type) := List (String × α)

/-- Put a thing under a name; a known name keeps its place. -/
def Directory.put
    {α : Type}
    (name : String)
    (thing : α) :
    Directory α → Directory α
  | [] => [(name, thing)]
  | entry :: rest =>
      if entry.1 = name then
        (name, thing) :: rest
      else
        entry :: Directory.put name thing rest

/-- Who is to be registered: an observer by its name, or whatever a recipe makes. -/
inductive Candidate where
  | observer (name : String)
  | stranger (recipe : Recipe)

/-- What can be done in a session; a parser is meant where none is named. -/
inductive Command where
  | register (candidate : Candidate)
  | loadTokens (tokens : Recipe)
  | loadTable (table : Recipe)
  | run
  | setVerbose (verbose : Bool)
  | look
  | assignSymbol (key value : Recipe)
  | complain (message : String)
  | listLines (observer : String)
  | listProductions (observer : String)
  | showSymbolTable (observer : String)
  | giveSymbolTable (observer : String) (symbolTable : Recipe)
  | registryRegister (candidate : Candidate)
  | registryShift (state token : Recipe)
  | registryReduce (state production : Recipe)
  | registryAccept (state : Recipe)
  | registrySymbolTable (symbolTable : Recipe)

/-- Whether a command concerns the registry that belongs to no parser. -/
def Command.isForRegistry :
    Command → Bool
  | .registryRegister _ => true
  | .registryShift .. => true
  | .registryReduce .. => true
  | .registryAccept _ => true
  | .registrySymbolTable _ => true
  | _ => false

/-- A command to a parser; a scripted step may keep its fault to itself. -/
structure Step where
  parser : String
  command : Command
  caught : Bool

/-- What a step reports back. -/
inductive Report where
  | nothing
  | text (text : String)
  | texts (texts : List String)

/-- A stack symbol in text, with the variant that it belongs to. -/
structure SymbolText where
  isToken : Bool
  text : String

/-- A parser's stacks and the number of its pending tokens at some moment. -/
structure Snapshot where
  states : List String
  symbols : List SymbolText
  pending : Nat

/-- One row of the log of a session. -/
inductive LogRow where
  | heard (observer : String) (words : List String) (snapshot : Option Snapshot)
  | did (observer : String) (outcome : Except Account Report)

/-- An observer that logs events, and takes scripted steps after some of them. -/
structure Recorder where
  snapshotOf : Option String
  script : List (Nat × List Step)
  heard : Nat

/-- What an observer does with events. -/
inductive Role where
  | recorder (recorder : Recorder)
  | collector (productions : List Value)
  | symbolRecorder

/-- An observer with the symbol table it was last given. -/
structure Observer where
  symbolTable : Value
  role : Role

/-- The world of a session. -/
structure Session where
  workshop : Workshop
  observers : Directory Observer
  parsers : Directory Parser
  registry : Registry
  log : List LogRow
  trace : List TraceBlock

namespace Observer

/-- A new observer, which has no symbol table yet. -/
def create
    (role : Role) :
    Observer :=
  ⟨.none, role⟩

/-- The name of the observer's class. -/
def typeName
    (observer : Observer) :
    String :=
  match observer.role with
  | .recorder _ => "Recorder"
  | .collector _ => "ProductionCollector"
  | .symbolRecorder => "SymRecorder"

end Observer

/-- A recorder that has heard nothing yet. -/
def Recorder.create
    (snapshotOf : Option String)
    (script : List (Nat × List Step)) :
    Recorder :=
  ⟨snapshotOf, script, 0⟩

/-- The number of steps in a recorder's script. -/
def Recorder.scriptLength
    (recorder : Recorder) :
    Nat :=
  recorder.script.foldr (fun entry total => entry.2.length + total) 0

namespace Session

/-- A session in which nothing has happened. -/
def create
    (workshop : Workshop)
    (observers : Directory Observer)
    (parsers : Directory Parser)
    (registry : Registry) :
    Session where
  workshop := workshop
  observers := observers
  parsers := parsers
  registry := registry
  log := []
  trace := []

/-- The store that everyone in the session draws on. -/
def store
    (session : Session) :
    Store :=
  session.workshop.store

/-- The session with another store. -/
def putStore
    (session : Session)
    (store : Store) :
    Session :=
  { session with workshop := { session.workshop with store := store } }

/-- The parser of a name; one that is named for the first time is new. -/
def parser
    (session : Session)
    (name : String) :
    Parser :=
  (session.parsers.lookup name).getD (.create .none false)

/-- The session with another parser under a name. -/
def putParser
    (session : Session)
    (name : String)
    (parser : Parser) :
    Session :=
  { session with parsers := session.parsers.put name parser }

/-- The session with another observer under a name. -/
def putObserver
    (session : Session)
    (name : String)
    (observer : Observer) :
    Session :=
  { session with observers := session.observers.put name observer }

/-- The session seen from one of its parsers at work. -/
def frame
    (session : Session)
    (name : String) :
    Frame Session :=
  ⟨session.parser name, session.store, session.trace, session⟩

/-- The session after one of its parsers has been at work. -/
def ofFrame
    (name : String)
    (frame : Frame Session) :
    Session :=
  { (frame.world.putParser name frame.parser).putStore frame.store with
    trace := frame.trace }

/--
How deep scripted steps can be nested.

A recorder counts the events it hears before it follows its script, so each
scripted step takes place at most once.
-/
def nesting
    (session : Session) :
    Nat :=
  1 + session.observers.foldr
    (fun entry total =>
      match entry.2.role with
      | .recorder recorder => recorder.scriptLength + total
      | _ => total)
    0

end Session

end ShiftReduce
