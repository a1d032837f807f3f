import ShiftReduce.Parser.Registry
import ShiftReduce.Table.Lookup

namespace ShiftReduce

/-!
# Parsers

A parser holds two stacks and a queue: the states on its way through the
table's automaton, the symbols recognised so far, and the tokens still to come.
Both stacks are lists with the top first; the last symbol is the bottom marker.

Tokens and table are loaded separately, in any order and as often as one likes,
and a parser then runs once.
-/

/-- A parser between two of its actions. -/
structure Parser where
  registry : Registry
  table : Value
  states : List Value
  symbols : List Symbol
  pending : List Value
  accepted : Bool
  ran : Bool
  verbose : Bool

/-- An operation on a parser, which may fail with the parser changed so far. -/
abbrev Operation := EStateM Fault Parser

/-- Go on with a result, or fail with its fault. -/
def Operation.ofExcept
    {α : Type} :
    Except Fault α → Operation α
  | .ok result => pure result
  | .error cause => throw cause

namespace Parser

/-- A parser with nothing loaded. -/
def create
    (symbolTable : Value)
    (verbose : Bool) :
    Parser where
  registry := .empty symbolTable
  table := .none
  states := []
  symbols := []
  pending := []
  accepted := false
  ran := false
  verbose := verbose

/-- The marker at the bottom of every symbol stack. -/
def bottomMarker : Symbol :=
  .token .epsilon

/-- Queue the members that a value has now as tokens, and clear the symbol stack. -/
def loadTokens
    (store : Store)
    (tokens : Value) :
    Operation Unit := do
  let members ← Operation.ofExcept (store.members tokens)
  modify fun parser =>
    { parser with pending := members, symbols := [bottomMarker] }

/-- Keep a value as the table; only a table then puts its initial state on the stack. -/
def loadTable
    (table : Value) :
    Operation Unit := do
  modify fun parser => { parser with table := table }
  match table with
  | .table loaded =>
      modify fun parser => { parser with states := [loaded.initial] }
  | other => throw (other.lacks "initial_state")

/--
Put a listener on the registry, and name the observer to which the symbol table
is due.
-/
def register
    (listener : Listener) :
    Operation String := do
  modify fun parser =>
    { parser with registry := parser.registry.add listener }
  Operation.ofExcept listener.recipient

/-- The symbols above the bottom marker, from the bottom to the top. -/
def recognised
    (parser : Parser) :
    List Symbol :=
  parser.symbols.reverse.drop 1

/-- The states, from the bottom to the top. -/
def path
    (parser : Parser) :
    List Value :=
  parser.states.reverse

/-- The symbol that the whole input was reduced to, once it is accepted. -/
def start?
    (parser : Parser) :
    Option Symbol :=
  if parser.accepted then
    parser.symbols.head?
  else
    none

/-- Whether both a table and tokens have been loaded. -/
def isLoaded
    (parser : Parser) :
    Bool :=
  !parser.table.isNone && !parser.symbols.isEmpty

end Parser

end ShiftReduce
