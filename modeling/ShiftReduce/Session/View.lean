import ShiftReduce.Session.Basic

namespace ShiftReduce

/-!
# Views of a session

What can be seen of a session at some moment, in texts: the words for an event,
a parser's stacks and queue, and the registry.  A view comes to a misfit where
one of its texts does.
-/

/-- The words for an event: its kind, the state, and what it is about. -/
def Event.words
    (store : Store) :
    Event → Except Misfit (List String)
  | .shift state token => do
      let stateText ← store.shown state
      let tokenText ← store.shown token
      return ["shift", stateText, tokenText]
  | .reduce state production => do
      let stateText ← store.shown state
      let productionText ← store.plain production
      return ["reduce", stateText, productionText]
  | .accept state => do
      let stateText ← store.shown state
      return ["accept", stateText]

/-- A stack symbol in text. -/
def SymbolText.of
    (store : Store)
    (symbol : Symbol) :
    Except Misfit SymbolText := do
  let text ← (store.resolveSymbol symbol).shown
  return ⟨symbol.isToken, text⟩

/-- Stack symbols in texts. -/
def SymbolText.ofAll
    (store : Store) :
    List Symbol → Except Misfit (List SymbolText)
  | [] => .ok []
  | symbol :: rest => do
      let text ← SymbolText.of store symbol
      let texts ← SymbolText.ofAll store rest
      return text :: texts

/-- What can be seen of a parser. -/
structure ParserView where
  states : List String
  symbols : List SymbolText
  pending : List String
  accepted : Bool
  start : Option SymbolText
  symbolTable : String

/-- What can be seen of a registry; a stranger on it has no name. -/
structure RegistryView where
  listeners : List (Option String)
  symbolTable : String

namespace Parser

/-- A parser's stacks and queue, in short. -/
def snapshot
    (store : Store)
    (parser : Parser) :
    Except Misfit Snapshot := do
  let states ← store.shownAll parser.path
  let symbols ← SymbolText.ofAll store parser.recognised
  return ⟨states, symbols, parser.pending.length⟩

/-- What can be seen of a parser. -/
def view
    (store : Store)
    (parser : Parser) :
    Except Misfit ParserView := do
  let states ← store.shownAll parser.path
  let symbols ← SymbolText.ofAll store parser.recognised
  let pending ← store.shownAll parser.pending
  let start ←
    match parser.start? with
    | some symbol => some <$> SymbolText.of store symbol
    | none => pure none
  let symbolTable ← store.shown parser.registry.symbolTable
  return ⟨states, symbols, pending, parser.accepted, start, symbolTable⟩

end Parser

/-- The name of a listener that has one. -/
def Listener.name? :
    Listener → Option String
  | .observer name => some name
  | .stranger _ => none

/-- What can be seen of a registry. -/
def Registry.view
    (store : Store)
    (registry : Registry) :
    Except Misfit RegistryView := do
  let symbolTable ← store.shown registry.symbolTable
  return ⟨registry.listeners.map Listener.name?, symbolTable⟩

end ShiftReduce
