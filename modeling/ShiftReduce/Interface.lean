import ShiftReduce.Value.Printer

namespace ShiftReduce

/-!
# Interfaces

Tables, observers and parsers can be supplied from outside.  An interface names
the methods that a supplier has to define; what merely defers to the interface
itself is not implemented.  Observers also come with a place for a symbol table
and with a method that fills it.
-/

/-- What can be supplied from outside. -/
inductive Interface where
  | table
  | observer
  | parser
  deriving Repr, DecidableEq

namespace Interface

/-- The methods that have to be defined, in alphabetical order. -/
def required :
    Interface → List String
  | .table => ["action", "goto", "initial_state"]
  | .observer => ["on_accept", "on_reduce", "on_shift"]
  | .parser => ["load_table", "load_tokens", "run"]

/-- The required methods that a supplier leaves undefined. -/
def missing
    (interface : Interface)
    (defined : List String) :
    List String :=
  interface.required.filter fun method => !defined.contains method

/-- The symbol table of a supplier: observers start without one, others have no place for it. -/
def initialSymbolTable :
    Interface → Value
  | .observer => .none
  | _ => .text "-"

/-- What a call of an interface's own method comes to. -/
inductive Outcome where
  | returned (symbolTable : Value)
  | notImplemented

/-- Call a method as the interface itself has it. -/
def call
    (interface : Interface)
    (method : String)
    (arguments : List Value) :
    Outcome :=
  match interface, method, arguments with
  | .observer, "set_symbol_table", [symbolTable] => .returned symbolTable
  | _, _, _ => .notImplemented

end Interface

end ShiftReduce
