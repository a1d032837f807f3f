namespace ShiftReduce

/-!
# Values

A shift-reduce machine is indifferent to what its states, token values and
symbol tables are made of, so one type of values covers them all: plain data
(nothing, truth values, integers, texts, lists, tuples, dictionaries) and the
parts of grammars and tables (tokens, non-terminals, stack symbols,
productions, actions and transition tables).

Parts of grammars appear inside plain data and the other way round, hence the
single mutual definition.  Most values are told apart by content.  A few are
told apart by who made them, and those carry an identity number.

A container that is to stay one and the same wherever it comes up lies in a
store, and values mention it by its place there, so that all of them see it
change.
-/

/-- Which of the three classes of tokens a token belongs to. -/
inductive TokenClass where
  | plain
  | endOfInput
  | epsilon
  deriving Repr, DecidableEq

/--
A class of actions that is derived from one of the classes here.

It may set a kind of its own; otherwise its actions are of the kind of the class that it is
derived from.  Classes are told apart by their identity.
-/
structure DerivedClass where
  identity : Nat
  name : String
  ownKind : Option String
  deriving Repr, DecidableEq

/-- Whether an action is of one of the classes here or of a class derived from it. -/
inductive Lineage where
  | direct
  | derived (derivedClass : DerivedClass)
  deriving Repr, DecidableEq

/-- The sorts of values that are made up of members. -/
inductive ContainerSort where
  | list
  | tuple
  | dict
  deriving Repr, DecidableEq

/-- A grammar symbol that stands for a sequence of other symbols. -/
structure NonTerminal where
  name : String
  deriving Repr, DecidableEq

mutual

/-- Anything a table, a token or a symbol table may hold. -/
inductive Value where
  | none
  | bool (truth : Bool)
  | int (number : Int)
  | text (content : String)
  | list (items : List Value)
  | tuple (items : List Value)
  | dict (entries : List (Value × Value))
  | shared (sort : ContainerSort) (place : Nat)
  | token (token : Token)
  | nonterminal (nonterminal : NonTerminal)
  | symbol (symbol : Symbol)
  | production (production : Production)
  | action (action : Action)
  | table (table : Table)

/-- A terminal symbol of the input, with its kind and an optional payload. -/
structure Token where
  tokenClass : TokenClass
  kind : String
  value : Value

/--
An entry of the symbol stack.

A bare symbol wraps neither a token nor a non-terminal; it never reaches a
stack, and is known only by its identity.
-/
inductive Symbol where
  | token (token : Token)
  | nonterminal (nonterminal : NonTerminal)
  | bare (identity : Nat)

/--
A grammar rule: a head and the body it stands for.

A rule of a derived class carries an identity, a rule of the class itself
carries none.  The index is a label without influence on anything.
-/
structure Production where
  derivedIdentity : Option Nat
  head : Value
  body : List Value
  index : Value

/--
What a table tells the machine to do next.

An action that is none of the four which a machine knows is of the class of all actions, or
of a class derived from that one alone.
-/
inductive Action where
  | shift (lineage : Lineage) (nextState : Value)
  | reduce (lineage : Lineage) (production : Value)
  | accept (lineage : Lineage)
  | error (lineage : Lineage)
  | unknown (lineage : Lineage)

/-- One entry of a table, found by its state and its column. -/
structure Cell where
  state : Value
  column : Value
  entry : Value

/-- How a table answers the question which kinds it expects in a state. -/
inductive Diagnosis where
  | computed
  | absent
  | fixed (answer : Value)

/-- A transition table: actions by state and kind, gotos by state and non-terminal. -/
structure Table where
  identity : Nat
  actions : List Cell
  gotos : List Cell
  initial : Value
  diagnosis : Diagnosis

end

instance : Inhabited Value := ⟨.none⟩

namespace Token

/-- The kind of the token that ends every input. -/
def endOfInputKind : String := "$"

/-- The kind of the token at the bottom of the symbol stack. -/
def epsilonKind : String := "<e>"

/-- A token of the given kind with a payload. -/
def plain
    (kind : String)
    (value : Value) :
    Token :=
  ⟨.plain, kind, value⟩

/-- A token of the given kind without a payload. -/
def ofKind
    (kind : String) :
    Token :=
  plain kind .none

/-- The token that ends every input. -/
def endOfInput : Token :=
  ⟨.endOfInput, endOfInputKind, .none⟩

/-- The token that marks the bottom of the symbol stack and is never read. -/
def epsilon : Token :=
  ⟨.epsilon, epsilonKind, .none⟩

/-- The name of the token's class. -/
def typeName
    (token : Token) :
    String :=
  match token.tokenClass with
  | .plain => "Token"
  | .endOfInput => "EndOfInput"
  | .epsilon => "Epsilon"

end Token

namespace Symbol

/-- The name of the symbol's class. -/
def typeName :
    Symbol → String
  | .token _ => "TokenSymbol"
  | .nonterminal _ => "NontermSymbol"
  | .bare _ => "BareSymbol"

/-- Whether the symbol wraps a token. -/
def isToken :
    Symbol → Bool
  | .token _ => true
  | _ => false

/-- Whether the symbol wraps a non-terminal. -/
def isNonterminal :
    Symbol → Bool
  | .nonterminal _ => true
  | _ => false

end Symbol

namespace Lineage

/-- The kind of a class, given the kind of the class that it is or is derived from. -/
def kind
    (inherited : String) :
    Lineage → String
  | .direct => inherited
  | .derived derivedClass => derivedClass.ownKind.getD inherited

/-- The name of a class, given the name of the class that it is or is derived from. -/
def typeName
    (baseName : String) :
    Lineage → String
  | .direct => baseName
  | .derived derivedClass => derivedClass.name

end Lineage

namespace Action

/-- The word by which an action is known. -/
def kind :
    Action → String
  | .shift lineage _ => lineage.kind "shift"
  | .reduce lineage _ => lineage.kind "reduce"
  | .accept lineage => lineage.kind "accept"
  | .error lineage => lineage.kind "error"
  | .unknown lineage => lineage.kind ""

/-- The name of the action's class. -/
def typeName :
    Action → String
  | .shift lineage _ => lineage.typeName "ShiftAction"
  | .reduce lineage _ => lineage.typeName "ReduceAction"
  | .accept lineage => lineage.typeName "AcceptAction"
  | .error lineage => lineage.typeName "ErrorAction"
  | .unknown lineage => lineage.typeName "Action"

/-- Whether an action refuses the lookahead, in a derived class or not. -/
def isError :
    Action → Bool
  | .error _ => true
  | _ => false

end Action

namespace Production

/-- The number of symbols that a reduction by the rule consumes. -/
def length
    (production : Production) :
    Nat :=
  production.body.length

/-- The name of the rule's class. -/
def typeName
    (production : Production) :
    String :=
  match production.derivedIdentity with
  | Option.none => "Production"
  | some _ => "SubProduction"

end Production

namespace Table

/-- The name of the table's class, which its way of diagnosing decides. -/
def typeName
    (table : Table) :
    String :=
  match table.diagnosis with
  | .computed => "LRTable"
  | .absent => "PlainTable"
  | .fixed _ => "ListingTable"

end Table

/-- The name of the class of the containers of a sort. -/
def ContainerSort.typeName :
    ContainerSort → String
  | .list => "list"
  | .tuple => "tuple"
  | .dict => "dict"

namespace Value

/-- The sort of a container that lies in no store. -/
def containerSort? :
    Value → Option ContainerSort
  | .list _ => some .list
  | .tuple _ => some .tuple
  | .dict _ => some .dict
  | _ => Option.none

/-- The name of the value's class. -/
def typeName :
    Value → String
  | .none => "NoneType"
  | .bool _ => "bool"
  | .int _ => "int"
  | .text _ => "str"
  | .list _ => "list"
  | .tuple _ => "tuple"
  | .dict _ => "dict"
  | .shared sort _ => sort.typeName
  | .token carried => carried.typeName
  | .nonterminal _ => "NonTerminal"
  | .symbol carried => carried.typeName
  | .production carried => carried.typeName
  | .action carried => carried.typeName
  | .table carried => carried.typeName

/-- Whether a value is a tuple that lies in no store. -/
def isTuple :
    Value → Bool
  | .tuple _ => true
  | _ => false

/-- Whether a value is nothing at all. -/
def isNone :
    Value → Bool
  | .none => true
  | _ => false

/-- The kind by which a table is consulted: tokens have one, and so do actions. -/
def kind? :
    Value → Option String
  | .token carried => some carried.kind
  | .action carried => some carried.kind
  | _ => Option.none

/-- The number of things in a value that has a length. -/
def length? :
    Value → Option Nat
  | .text content => some content.length
  | .list items => some items.length
  | .tuple items => some items.length
  | .dict entries => some entries.length
  | .production carried => some carried.length
  | _ => Option.none

/-- The members of a value that can be walked through: a dictionary yields its keys. -/
def members? :
    Value → Option (List Value)
  | .text content =>
      some (content.toList.map fun character =>
        .text (String.singleton character))
  | .list items => some items
  | .tuple items => some items
  | .dict entries => some (entries.map Prod.fst)
  | _ => Option.none

end Value

end ShiftReduce
