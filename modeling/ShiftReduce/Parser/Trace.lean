import ShiftReduce.Parser.Basic

namespace ShiftReduce

/-!
# The trace of a verbose parser

A verbose parser shows its stacks, the lookahead and the action on every turn,
and its stacks once more after every reduction.  A stack takes two lines: the
symbols, and below each symbol the state beside it, padded so that the columns
stay aligned as long as no state is wider than its symbol.

A block is printed piece by piece.  A piece that comes to a misfit ends the
printing, and what was printed before it stays.
-/

/-- One block of a trace; stacks are listed from the bottom to the top. -/
inductive TraceBlock where
  | stack (symbols : List Symbol) (states : List Value)
  | lookahead (token : Value)
  | action (action : Value)

namespace TraceBlock

/-- A text followed by enough blanks to fill a column of the given width. -/
def padded
    (width : Nat)
    (text : String) :
    String :=
  text ++ String.ofList (List.replicate (width - text.length) ' ')

/-- A symbol in the line of symbols, followed by a blank. -/
def symbolPiece
    (symbol : Symbol) :
    Rendering := do
  let text ← symbol.shown
  return text ++ " "

/-- A state in the line of states, padded to its symbol and followed by a blank. -/
def statePiece
    (symbol : Symbol)
    (state : Value) :
    Rendering := do
  let symbolText ← symbol.shown
  let stateText ← state.shown
  return padded symbolText.length stateText ++ " "

/-- The line of symbols, in pieces. -/
def symbolLine
    (symbols : List Symbol) :
    List Rendering :=
  .ok "STACK: " :: symbols.map symbolPiece ++ [.ok "\n"]

/-- The line of states below their symbols, in pieces. -/
def stateLine
    (symbols : List Symbol)
    (states : List Value) :
    List Rendering :=
  .ok "       " :: List.zipWith statePiece symbols states ++ [.ok "\n"]

/-- The line of the lookahead, in one piece. -/
def lookaheadLine
    (token : Value) :
    Rendering := do
  let text ← token.shown
  return "INPUT: " ++ text ++ "\n"

/-- The line of the action, in one piece with a single gap. -/
def actionLine
    (action : Value) :
    Rendering := do
  let text ← action.shownInGap
  return "   --> " ++ text ++ "\n"

/-- A block in pieces. -/
def pieces :
    TraceBlock → List Rendering
  | .stack symbols states => symbolLine symbols ++ stateLine symbols states
  | .lookahead token => [lookaheadLine token]
  | .action selected => [actionLine selected]

/-- What is printed of several pieces: all up to the first misfit. -/
def printed :
    List Rendering → String
  | .ok text :: rest => text ++ printed rest
  | _ => ""

/-- The misfit that ends the printing of several pieces. -/
def obstacle? :
    List Rendering → Option Misfit
  | [] => none
  | .ok _ :: rest => obstacle? rest
  | .error misfit :: _ => some misfit

/-- The printed form of a block. -/
def text
    (block : TraceBlock) :
    String :=
  printed block.pieces

/-- The misfit that ends the printing of a block. -/
def misfit?
    (block : TraceBlock) :
    Option Misfit :=
  obstacle? block.pieces

/-- The printed form of a trace. -/
def render
    (trace : List TraceBlock) :
    String :=
  String.join (trace.map text)

/-- A block with the contents of all places that it mentions. -/
def resolve
    (store : Store) :
    TraceBlock → TraceBlock
  | .stack symbols states =>
      .stack (symbols.map store.resolveSymbol) (states.map store.resolve)
  | .lookahead token => .lookahead (store.resolve token)
  | .action selected => .action (store.resolveInGap selected)

end TraceBlock

/-- The stacks of a parser, as a verbose parser shows them. -/
def Parser.stackBlock
    (parser : Parser) :
    TraceBlock :=
  .stack parser.symbols.reverse parser.states.reverse

end ShiftReduce
