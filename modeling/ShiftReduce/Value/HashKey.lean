import ShiftReduce.Fault

namespace ShiftReduce

/-!
# Hash keys

A value's hash key lists the atoms by which a dictionary files it; the keys of
a tuple's members stand between an opening and a closing mark.  Values may have
equal keys and differ: a token is filed under its kind alone, as a text of that
kind is.  Shifts and reductions are filed by their kind, which does not count
when they are compared, and by what they carry.  Lists and dictionaries can
change, so they have no key, and neither has anything filed by one, nor a
container mentioned by its place alone.
-/

/-- One atom of a hash key. -/
inductive HashAtom where
  | none
  | number (value : Int)
  | text (content : String)
  | object (identity : Nat)
  | opening
  | closing
  deriving Repr, DecidableEq

/-- What a dictionary files a value by. -/
abbrev HashKey := List HashAtom

namespace HashKey

/-- The key of a sequence of things with the given keys. -/
def sequence
    (keys : List HashAtom) :
    HashKey :=
  .opening :: keys ++ [.closing]

end HashKey

mutual

/-- The hash key of a value, or the reason why it has none. -/
def Value.hashKey :
    Value → Except Fault HashKey
  | .none => .ok [.none]
  | .bool true => .ok [.number 1]
  | .bool false => .ok [.number 0]
  | .int number => .ok [.number number]
  | .text content => .ok [.text content]
  | .list _ => .error (.unhashable "list")
  | .tuple items => do
      let keys ← Value.hashKeys items
      return HashKey.sequence keys
  | .dict _ => .error (.unhashable "dict")
  | .shared sort _ => .error (.unhashable sort.typeName)
  | .token carried => .ok [.text carried.kind]
  | .nonterminal carried => .ok [.text carried.name]
  | .symbol (.token wrapped) => .ok [.text wrapped.kind]
  | .symbol (.nonterminal wrapped) => .ok [.text wrapped.name]
  | .symbol (.bare identity) => .ok [.object identity]
  | .production carried => carried.hashKey
  | .action carried => carried.hashKey
  | .table carried => .ok [.object carried.identity]
termination_by structural value => value

/-- The hash keys of several values, one after the other. -/
def Value.hashKeys :
    List Value → Except Fault (List HashAtom)
  | [] => .ok []
  | value :: rest => do
      let key ← value.hashKey
      let keys ← Value.hashKeys rest
      return key ++ keys
termination_by structural values => values

/-- A rule is filed by its head and its body. -/
def Production.hashKey :
    Production → Except Fault HashKey
  | ⟨_, head, body, _⟩ => do
      let headKey ← head.hashKey
      let bodyKeys ← Value.hashKeys body
      return HashKey.sequence (headKey ++ HashKey.sequence bodyKeys)
termination_by structural production => production

/-- An action is filed by its kind and by what it carries. -/
def Action.hashKey :
    Action → Except Fault HashKey
  | .shift lineage nextState => do
      let key ← nextState.hashKey
      return HashKey.sequence (.text (Action.shift lineage nextState).kind :: key)
  | .reduce lineage production => do
      let key ← production.hashKey
      return HashKey.sequence (.text (Action.reduce lineage production).kind :: key)
  | .accept lineage => .ok [.text (Action.accept lineage).kind]
  | .error lineage => .ok [.text (Action.error lineage).kind]
  | .unknown lineage => .ok [.text (Action.unknown lineage).kind]
termination_by structural action => action

end

/-- Whether things with the given hash keys may be one key; without a key, nothing is ruled out. -/
def HashKey.mayMeet :
    Except Fault HashKey → Except Fault HashKey → Bool
  | .ok first, .ok second => first = second
  | _, _ => true

end ShiftReduce
