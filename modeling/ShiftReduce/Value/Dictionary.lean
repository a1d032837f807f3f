import ShiftReduce.Value.Store

namespace ShiftReduce

/-!
# Dictionaries

Dictionaries keep their entries in order of first insertion: an entry with an
equal key keeps its place and its key, and takes the new value.  Only what has
a hash key can be a key.  Lists take new values at the places they have.  Which
keys are equal may depend on what a store holds at the moment, and finding it
out may fail.
-/

namespace Value

/-- The entry of a dictionary that is filed under a key. -/
def entryOf?
    (store : Store)
    (key : Value)
    (entries : List (Value × Value)) :
    Except Fault (Option (Value × Value)) :=
  entries.findM? fun entry => store.sameKey entry.1 key

/-- Put a value under a key that is known to have a hash key. -/
def putEntry
    (store : Store)
    (key value : Value) :
    List (Value × Value) → Except Fault (List (Value × Value))
  | [] => .ok [(key, value)]
  | entry :: rest => do
      if ← store.sameKey entry.1 key then
        return (entry.1, value) :: rest
      else
        let rest ← putEntry store key value rest
        return entry :: rest

/-- Put a value under a key, provided that the key can be filed. -/
def insertEntry
    (store : Store)
    (entries : List (Value × Value))
    (key value : Value) :
    Except Fault (List (Value × Value)) := do
  let _ ← store.hashKey key
  putEntry store key value entries

/-- The integer that a value can be used as when it counts places. -/
def index? :
    Value → Option Int
  | .bool truth => some (truthNumber truth)
  | .int number => some number
  | _ => Option.none

/-- Indices lie below this bound, and not below its negative. -/
def indexBound : Int := Int.pow 2 63

/-- The place of a list that an index means; negative ones count from the end. -/
def placeOf
    (index : Int)
    (length : Nat) :
    Except Fault Nat :=
  let fromStart := if index < 0 then index + length else index
  if index < -indexBound ∨ indexBound ≤ index then
    .error .listIndexTooLarge
  else if 0 ≤ fromStart ∧ fromStart < length then
    .ok fromStart.toNat
  else
    .error .listAssignmentOutOfRange

/-- The container with a value put at a key, or the reason why it takes none. -/
def assignItem
    (store : Store)
    (container key value : Value) :
    Except Fault Value :=
  match container with
  | .dict entries => do
      let entries ← insertEntry store entries key value
      return .dict entries
  | .list items =>
      match key.index? with
      | Option.none => .error (.badListIndex key.typeName)
      | some index => do
          let place ← placeOf index items.length
          return .list (items.set place value)
  | other => .error (.noItemAssignment other.typeName)

/-- The dictionary with a fresh key numbered by its size; a known key stays as it is. -/
def numberKey
    (store : Store)
    (container key : Value) :
    Except Fault Value :=
  match container with
  | .dict entries => do
      let _ ← store.hashKey key
      let known ← entryOf? store key entries
      if known.isSome then
        return .dict entries
      else
        return .dict (entries ++ [(key, .int entries.length)])
  | other => .error (other.lacks "setdefault")

/-- Find for each value the first one filed under an equal key, by its position. -/
def firstPositionsFrom
    (position : Nat)
    (filed : List (Value × Nat)) :
    List Value → Except Fault (List Nat)
  | [] => .ok []
  | value :: rest => do
      let _ ← value.hashKey
      match filed.find? (fun entry => value.equals entry.1) with
      | some entry => do
          let positions ← firstPositionsFrom (position + 1) filed rest
          return entry.2 :: positions
      | Option.none => do
          let positions ←
            firstPositionsFrom (position + 1) (filed ++ [(value, position)]) rest
          return position :: positions

/-- For each value, the position of the first value that a dictionary takes it for. -/
def firstPositions
    (values : List Value) :
    Except Fault (List Nat) :=
  firstPositionsFrom 0 [] values

end Value

end ShiftReduce
