import ShiftReduce.Value.Printer

namespace ShiftReduce

/-!
# Faults

Everything that can go wrong is a cause of its own, with the values that
explain it.  `Fault.wording` words each cause and `Fault.category` sorts the
causes by whom they concern: the input, the table, a caller that used a value
for what it is not, or an observer.

A wording shows values, so it may come to a misfit.  `Fault.account` puts a
fault altogether into texts: its wording, and the particulars that refused
tokens and defective tables come with.
-/

/-- Why a table cannot drive the parse any further, whatever the input. -/
inductive Defect where
  | tooDeep (production : Production) (available : Nat) (state : Value)
  | missingGoto (head : Value) (state : Value)
  | unknownAction (action : Value) (state : Value)
  | inputExhausted (state : Value)

namespace Defect

/-- The wording of a defect. -/
def wording :
    Defect → Rendering
  | .tooDeep production available _ => do
      let productionText ← production.shown
      return "Cannot reduce " ++ productionText ++ " with " ++
        toString available ++ " symbol(s) on the stack"
  | .missingGoto head state => do
      let headText ← head.shown
      let stateText ← state.shown
      return "No goto for " ++ headText ++ " in state " ++ stateText
  | .unknownAction action state => do
      let actionText ← action.shown
      let stateText ← state.shown
      return "Unknown action " ++ actionText ++ " in state " ++ stateText
  | .inputExhausted state => do
      let stateText ← state.shown
      return "Input exhausted without accept in state " ++ stateText

/-- The state in which the defect showed. -/
def state :
    Defect → Value
  | .tooDeep _ _ state => state
  | .missingGoto _ state => state
  | .unknownAction _ state => state
  | .inputExhausted state => state

/-- The head of the rule that could not be carried out, if there was one. -/
def symbol :
    Defect → Value
  | .tooDeep production _ _ => production.head
  | .missingGoto head _ => head
  | .unknownAction .. => .none
  | .inputExhausted _ => .none

end Defect

/-- How the maker of an error report can be called wrongly. -/
inductive Misuse where
  | namesRefused (maker : String)
  | unknownArgument (maker argument : String)
  | repeatedArgument (maker argument : String)
  | tooManyArguments (maker : String) (least most given : Nat)
  | missingArgument (maker argument : String)

/-- The wording of a misuse. -/
def Misuse.message :
    Misuse → String
  | .namesRefused maker => maker ++ "() takes no keyword arguments"
  | .unknownArgument maker argument =>
      maker ++ "() got an unexpected keyword argument '" ++ argument ++ "'"
  | .repeatedArgument maker argument =>
      maker ++ "() got multiple values for argument '" ++ argument ++ "'"
  | .tooManyArguments maker least most given =>
      maker ++ "() takes from " ++ toString least ++ " to " ++ toString most ++
        " positional arguments but " ++ toString given ++ " were given"
  | .missingArgument maker argument =>
      maker ++ "() missing 1 required positional argument: '" ++ argument ++ "'"

/-- A cause of failure. -/
inductive Fault where
  | unexpectedToken (state token : Value) (expected : List Value)
  | malformedTable (defect : Defect)
  | notLoaded
  | alreadyRan
  | noVariant
  | unwrappable (value : Value)
  | expectedToken (value : Value)
  | expectedNonterminal (value : Value)
  | symbolIsNoToken (symbol : Symbol)
  | symbolIsNoNonterminal (symbol : Symbol)
  | misfit (cause : Misfit)
  | misuse (cause : Misuse)
  | missingMember (typeName member : String)
  | notIterable (typeName : String)
  | noLength (typeName : String)
  | unhashable (typeName : String)
  | unordered (firstType secondType : String)
  | endlessComparison
  | noItemAssignment (typeName : String)
  | badListIndex (typeName : String)
  | listIndexTooLarge
  | listAssignmentOutOfRange
  | readOnlyAssignment
  | readOnlyDeletion
  | indexOutOfRange
  | popFromEmptyStack
  | popFromEmptyQueue
  | unknownName (name : String)
  | observerFailure (message : String)

/-- The kinds of failure that a caller may want to tell apart. -/
inductive Fault.Category where
  | parse
  | malformedTable
  | symbolVariant
  | type
  | nesting
  | member
  | index
  | name
  | runtime
  | observer
  deriving Repr, DecidableEq

namespace Fault

/-- The wording of the refusal of a token in a state; the token comes up first. -/
def refusal
    (token state : Value) :
    Rendering := do
  let tokenText ← token.shown
  let stateText ← state.shown
  return "Unexpected token: " ++ tokenText ++ " in state " ++ stateText

/-- The wording of a cause. -/
def wording :
    Fault → Rendering
  | .unexpectedToken state token _ => refusal token state
  | .malformedTable defect => defect.wording
  | .notLoaded =>
      .ok "load_tokens() and load_table() must be called before run()"
  | .alreadyRan => .ok "a parser instance can only run once"
  | .noVariant =>
      .ok "Symbol holds no variant; use Symbol.of(), TokenSymbol or NontermSymbol"
  | .unwrappable value => do
      let text ← value.shown
      return "a symbol wraps a Token or a NonTerminal, not " ++ text
  | .expectedToken value => do
      let text ← value.shown
      return "expected a Token, got " ++ text
  | .expectedNonterminal value => do
      let text ← value.shown
      return "expected a NonTerminal, got " ++ text
  | .symbolIsNoToken symbol => do
      let text ← symbol.shown
      return text ++ " is not a token"
  | .symbolIsNoNonterminal symbol => do
      let text ← symbol.shown
      return text ++ " is not a non-terminal"
  | .misfit cause => .ok cause.message
  | .misuse cause => .ok cause.message
  | .missingMember typeName member =>
      .ok ("'" ++ typeName ++ "' object has no attribute '" ++ member ++ "'")
  | .notIterable typeName => .ok ("'" ++ typeName ++ "' object is not iterable")
  | .noLength typeName =>
      .ok ("object of type '" ++ typeName ++ "' has no len()")
  | .unhashable typeName => .ok ("unhashable type: '" ++ typeName ++ "'")
  | .unordered firstType secondType =>
      .ok ("'<' not supported between instances of '" ++ firstType ++
        "' and '" ++ secondType ++ "'")
  | .endlessComparison =>
      .ok "maximum recursion depth exceeded in comparison"
  | .noItemAssignment typeName =>
      .ok ("'" ++ typeName ++ "' object does not support item assignment")
  | .badListIndex typeName =>
      .ok ("list indices must be integers or slices, not " ++ typeName)
  | .listIndexTooLarge => .ok "cannot fit 'int' into an index-sized integer"
  | .listAssignmentOutOfRange => .ok "list assignment index out of range"
  | .readOnlyAssignment =>
      .ok "'mappingproxy' object does not support item assignment"
  | .readOnlyDeletion =>
      .ok "'mappingproxy' object does not support item deletion"
  | .indexOutOfRange => .ok "list index out of range"
  | .popFromEmptyStack => .ok "pop from empty list"
  | .popFromEmptyQueue => .ok "pop from an empty deque"
  | .unknownName name => .ok (Text.quoted name)
  | .observerFailure message => .ok message

/-- The kind of failure that a cause belongs to. -/
def category :
    Fault → Category
  | .unexpectedToken .. => .parse
  | .malformedTable _ => .malformedTable
  | .notLoaded => .runtime
  | .alreadyRan => .runtime
  | .noVariant => .type
  | .unwrappable _ => .type
  | .expectedToken _ => .type
  | .expectedNonterminal _ => .type
  | .symbolIsNoToken _ => .symbolVariant
  | .symbolIsNoNonterminal _ => .symbolVariant
  | .misfit _ => .type
  | .misuse _ => .type
  | .missingMember .. => .member
  | .notIterable _ => .type
  | .noLength _ => .type
  | .unhashable _ => .type
  | .unordered .. => .type
  | .endlessComparison => .nesting
  | .noItemAssignment _ => .type
  | .badListIndex _ => .type
  | .listIndexTooLarge => .index
  | .listAssignmentOutOfRange => .index
  | .readOnlyAssignment => .type
  | .readOnlyDeletion => .type
  | .indexOutOfRange => .index
  | .popFromEmptyStack => .index
  | .popFromEmptyQueue => .index
  | .unknownName _ => .name
  | .observerFailure _ => .observer

/-- Go on with a result, or fail with its misfit. -/
def ofRendering
    {α : Type} :
    Except Misfit α → Except Fault α
  | .ok result => .ok result
  | .error cause => .error (.misfit cause)

end Fault

/-- What the report of an error says beyond its message. -/
inductive Particulars (α : Type) where
  | nothing
  | refused (state token : α) (expected : List α)
  | defective (state symbol : α)

/-- Particulars in texts, up to the first misfit. -/
def Particulars.texts :
    Particulars Value → Except Misfit (Particulars String)
  | .nothing => .ok .nothing
  | .refused state token expected => do
      let stateText ← state.shown
      let tokenText ← token.shown
      let expectedTexts ← Value.shownAll expected
      return .refused stateText tokenText expectedTexts
  | .defective state symbol => do
      let stateText ← state.shown
      let symbolText ← symbol.shown
      return .defective stateText symbolText

/-- A fault in texts. -/
structure Account where
  category : Fault.Category
  message : String
  particulars : Particulars String

namespace Fault

/-- The values that explain a refused token or a defective table. -/
def particulars :
    Fault → Particulars Value
  | .unexpectedToken state token expected => .refused state token expected
  | .malformedTable defect => .defective defect.state defect.symbol
  | _ => .nothing

/-- A fault put into texts, the wording first. -/
def account
    (fault : Fault) :
    Except Misfit Account := do
  let message ← fault.wording
  let particulars ← fault.particulars.texts
  return ⟨fault.category, message, particulars⟩

end Fault

/-- A misfit put into texts. -/
def Misfit.account
    (misfit : Misfit) :
    Account :=
  ⟨.type, misfit.message, .nothing⟩

end ShiftReduce
