import ShiftReduce.Packaging.Version
import ShiftReduce.Value.Basic

namespace ShiftReduce.Packaging

/-!
# What the package exports

The names that the package offers to its users, and the constants that its
tables and tokens rely on.
-/

/-- The version of the package, as its own version file tells it. -/
def ownVersion : String :=
  String.ofList ((version? ownVersionFile.toList).getD [])

/-- The exported names, by code point. -/
def exports : List String :=
  ["AcceptAction", "Action", "AnyException", "EndOfInput", "ErrorAction",
   "LRTable", "Lr", "MalformedTableError", "NonTerminal", "NontermSymbol",
   "Observer", "ObserverRegistry", "ParseError", "Parser", "ParsingError",
   "Production", "ProductionCollector", "ReduceAction", "ShiftAction", "Symbol",
   "Table", "Token", "TokenSymbol", "TypeMismatch", "__version__"]

/-- The kinds of the undetermined action and of the four that a machine knows. -/
def actionKinds : List String :=
  [(Action.unknown .direct).kind, (Action.shift .direct .none).kind,
   (Action.reduce .direct .none).kind, (Action.accept .direct).kind,
   (Action.error .direct).kind]

end ShiftReduce.Packaging
