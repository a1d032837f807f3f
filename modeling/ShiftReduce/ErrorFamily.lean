import ShiftReduce.Value.Access

namespace ShiftReduce

/-!
# Families of errors

Callers tell errors apart by family.  Every family but the first has a parent,
and the family of symbol mismatches also counts as an error of types.  A report
of an error carries what its maker told it: refused tokens come with the state,
the token and what was expected instead, and table defects with the state and
the symbol.
-/

/-- The families of errors. -/
inductive ErrorFamily where
  | anyException
  | parsingError
  | parseError
  | malformedTable
  | typeMismatch
  deriving Repr, DecidableEq

namespace ErrorFamily

/-- The name of a family. -/
def name :
    ErrorFamily → String
  | .anyException => "AnyException"
  | .parsingError => "ParsingError"
  | .parseError => "ParseError"
  | .malformedTable => "MalformedTableError"
  | .typeMismatch => "TypeMismatch"

/-- All families. -/
def all : List ErrorFamily :=
  [.anyException, .parsingError, .parseError, .malformedTable, .typeMismatch]

/-- The family of a name. -/
def ofName?
    (wanted : String) :
    Option ErrorFamily :=
  all.find? fun family => family.name == wanted

/-- The names under which an error of a family can be caught, from the widest on. -/
def caughtAs :
    ErrorFamily → List String
  | .anyException => ["AnyException"]
  | .parsingError => ["AnyException", "ParsingError"]
  | .parseError => ["AnyException", "ParsingError", "ParseError"]
  | .malformedTable => ["AnyException", "MalformedTableError"]
  | .typeMismatch => ["AnyException", "TypeMismatch", "TypeError"]

end ErrorFamily

/-- An error as its maker described it. -/
structure ErrorReport where
  family : ErrorFamily
  arguments : List Value
  particulars : Particulars Value

namespace ErrorReport

/-- A single argument is the message; several are shown as a tuple. -/
def message
    (report : ErrorReport) :
    Rendering :=
  match report.arguments with
  | [] => .ok ""
  | [argument] => argument.plain
  | arguments => (Value.tuple arguments).shown

/-- The arguments that the maker of a report knows by name, if it knows any. -/
def parameters? :
    ErrorFamily → Option (List String)
  | .parseError => some ["message", "state", "token", "expected"]
  | .malformedTable => some ["message", "state", "symbol"]
  | _ => none

/-- Refuse the first name that the maker does not know, or that was given by position too. -/
def checkNames
    (maker : String)
    (parameters : List String)
    (positions : Nat) :
    List String → Except Fault Unit
  | [] => .ok ()
  | name :: rest =>
      if !parameters.contains name then
        .error (.misuse (.unknownArgument maker name))
      else if (parameters.take positions).contains name then
        .error (.misuse (.repeatedArgument maker name))
      else
        checkNames maker parameters positions rest

/--
Refuse arguments that do not fit the parameters, of which only the message has
to be given.  The report itself counts as an argument in front of them.
-/
def checkArguments
    (maker : String)
    (parameters : List String)
    (positional : List Value)
    (names : List String) :
    Except Fault Unit := do
  checkNames maker parameters positional.length names
  if parameters.length < positional.length then
    .error (.misuse
      (.tooManyArguments maker 2 (parameters.length + 1) (positional.length + 1)))
  else if positional.isEmpty && !names.contains "message" then
    .error (.misuse (.missingArgument maker "message"))
  else
    return ()

/-- An argument given by position, else by name, else its default. -/
def argument
    (positional : List Value)
    (named : List (String × Value))
    (position : Nat)
    (name : String)
    (default : Value) :
    Value :=
  match positional[position]? with
  | some value => value
  | none => (named.lookup name).getD default

/-- The report that results from arguments that are known to fit. -/
def fill
    (family : ErrorFamily)
    (positional : List Value)
    (named : List (String × Value)) :
    Except Fault ErrorReport :=
  let given := argument positional named
  match family with
  | .parseError => do
      let expected ← (given 3 "expected" (.tuple [])).members
      return ⟨family, [given 0 "message" .none],
        .refused (given 1 "state" .none) (given 2 "token" .none) expected⟩
  | .malformedTable =>
      .ok ⟨family, [given 0 "message" .none],
        .defective (given 1 "state" .none) (given 2 "symbol" .none)⟩
  | _ => .ok ⟨family, positional, .nothing⟩

/-- The report that results from the arguments given. -/
def build
    (family : ErrorFamily)
    (positional : List Value)
    (named : List (String × Value)) :
    Except Fault ErrorReport := do
  let names := named.map Prod.fst
  match parameters? family with
  | some parameters =>
      checkArguments (family.name ++ ".__init__") parameters positional names
  | none =>
      if !names.isEmpty then
        .error (.misuse (.namesRefused family.name))
  fill family positional named

end ErrorReport

end ShiftReduce
