import ShiftReduce.Fault

namespace ShiftReduce

/-!
# Using values for what they are

Some uses suit only some values: walking through the members, wrapping a token
or a non-terminal into a stack symbol, and taking it out again.  Each use either
succeeds or says why the value does not suit.
-/

namespace Value

/-- The members of a value, or the complaint that it has none. -/
def members
    (value : Value) :
    Except Fault (List Value) :=
  match value.members? with
  | some members => .ok members
  | Option.none => .error (.notIterable value.typeName)

/-- The complaint that a value lacks a member. -/
def lacks
    (value : Value)
    (member : String) :
    Fault :=
  .missingMember value.typeName member

end Value

namespace Symbol

/-- The symbol that wraps a token or a non-terminal, whichever is given. -/
def wrap :
    Value → Except Fault Symbol
  | .token carried => .ok (.token carried)
  | .nonterminal carried => .ok (.nonterminal carried)
  | other => .error (.unwrappable other)

/-- The symbol that wraps a token. -/
def wrapToken :
    Value → Except Fault Symbol
  | .token carried => .ok (.token carried)
  | other => .error (.expectedToken other)

/-- The symbol that wraps a non-terminal. -/
def wrapNonterminal :
    Value → Except Fault Symbol
  | .nonterminal carried => .ok (.nonterminal carried)
  | other => .error (.expectedNonterminal other)

/-- The token inside a symbol. -/
def asToken :
    Symbol → Except Fault Token
  | .token wrapped => .ok wrapped
  | other => .error (.symbolIsNoToken other)

/-- The non-terminal inside a symbol. -/
def asNonterminal :
    Symbol → Except Fault NonTerminal
  | .nonterminal wrapped => .ok wrapped
  | other => .error (.symbolIsNoNonterminal other)

end Symbol

namespace Production

/-- A rule of the class itself, named for its place in a grammar. -/
def rule
    (index : Int)
    (head : NonTerminal)
    (body : List Value) :
    Production :=
  ⟨none, .nonterminal head, body, .int index⟩

end Production

end ShiftReduce
