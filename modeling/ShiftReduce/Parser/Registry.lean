import ShiftReduce.Activity

namespace ShiftReduce

/-!
# Observers and their registry

Observers hear of every shift, reduction and acceptance before it takes place.
A registry lists them in the order of their registration, which is the order in
which they hear.  What an observer does with the news is not known here: the
surroundings supply a `deliver` function that acts on a state of their own.

Anything can be put into a registry.  What is no observer is found out only
when it is handed the symbol table or the news, and stays on the list.  The
symbol table can be any value; one that observers are to change lies in a store.
-/

/-- What observers hear of. -/
inductive Event where
  | shift (state token : Value)
  | reduce (state production : Value)
  | accept (state : Value)

/-- The name of the reaction that an event calls for. -/
def Event.reaction :
    Event → String
  | .shift .. => "on_shift"
  | .reduce .. => "on_reduce"
  | .accept _ => "on_accept"

/-- An entry of a registry: an observer by its name, or a value that is none. -/
inductive Listener where
  | observer (name : String)
  | stranger (value : Value)

/-- An ordered list of listeners with the symbol table they share. -/
structure Registry where
  symbolTable : Value
  listeners : List Listener

namespace Registry

/-- A registry without listeners. -/
def empty
    (symbolTable : Value) :
    Registry :=
  ⟨symbolTable, []⟩

/-- The registry with a listener added at the end. -/
def add
    (registry : Registry)
    (listener : Listener) :
    Registry :=
  { registry with listeners := registry.listeners ++ [listener] }

end Registry

namespace Listener

/-- The name of a listener that can take a symbol table. -/
def recipient :
    Listener → Except Fault String
  | .observer name => .ok name
  | .stranger value =>
      .error (.missingMember value.typeName "set_symbol_table")

/-- Tell one listener of an event. -/
def tell
    {σ : Type}
    (deliver : String → Event → Activity σ Unit)
    (event : Event) :
    Listener → Activity σ Unit
  | .observer name => deliver name event
  | .stranger value =>
      throw (.fault (.missingMember value.typeName event.reaction))

/-- Tell listeners of an event, one after the other. -/
def tellAll
    {σ : Type}
    (deliver : String → Event → Activity σ Unit)
    (event : Event) :
    List Listener → Activity σ Unit
  | [] => pure ()
  | listener :: rest => do
      listener.tell deliver event
      tellAll deliver event rest

end Listener

end ShiftReduce
