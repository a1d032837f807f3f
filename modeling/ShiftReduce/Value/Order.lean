import ShiftReduce.Sorting.Adaptive
import ShiftReduce.Value.Store

namespace ShiftReduce

/-!
# The order of values

Numbers are ordered by size, a truth value counting as the number it stands
for, and texts by code point.  Two lists, and two tuples, are ordered by the
first pair of members that differ, and by length where there is none.  All
other pairs of values have no order.

The rule is `Value.precedes`, which leaves open how members are told apart, and
what becomes of two values that are not made alike, one of which may be a
mention.  `Store.precedes` orders values as things stand.

Sorting stops at the first pair without an order that it compares.
-/

/-- A question about two values that may have no answer. -/
abbrev Question := Value → Value → Except Fault Bool

mutual

/-- Whether a value comes before another. -/
def Value.precedes
    (same unlike : Question) :
    Value → Value → Except Fault Bool
  | .bool first, .bool second =>
      .ok (decide (truthNumber first < truthNumber second))
  | .bool first, .int second => .ok (decide (truthNumber first < second))
  | .int first, .bool second => .ok (decide (first < truthNumber second))
  | .int first, .int second => .ok (decide (first < second))
  | .text first, .text second => .ok (decide (first < second))
  | .list first, .list second => Value.precedesAll same unlike first second
  | .tuple first, .tuple second => Value.precedesAll same unlike first second
  | first, second => unlike first second
termination_by structural first => first

/-- Whether members come before others: the first pair that differs decides. -/
def Value.precedesAll
    (same unlike : Question) :
    List Value → List Value → Except Fault Bool
  | first :: firstRest, second :: secondRest => do
      if ← same first second then
        Value.precedesAll same unlike firstRest secondRest
      else
        first.precedes same unlike second
  | [], _ :: _ => .ok true
  | _, [] => .ok false
termination_by structural first => first

end

namespace Value

/-- Whether a value is a text. -/
def isText :
    Value → Bool
  | .text _ => true
  | _ => false

/-- Texts by code point; what is no text keeps its place. -/
def notAfter :
    Value → Value → Bool
  | .text first, .text second => !decide (second < first)
  | _, _ => true

end Value

namespace Store

/-- Order values as things stand, through as many containers as are granted. -/
def precedesWithin
    (store : Store) :
    (containers : Nat) → Value → Value → Except Fault Bool
  | 0, _, _ => .error .endlessComparison
  | containers + 1, first, second =>
      let unlike first second :=
        if first.isMention || second.isMention then
          store.precedesWithin containers
            (store.lookAt first)
            (store.lookAt second)
        else
          .error (.unordered first.typeName second.typeName)
      first.precedes store.same unlike second

/-- Whether a value comes before another as things stand, or why that has no answer. -/
def precedes
    (store : Store)
    (first second : Value) :
    Except Fault Bool :=
  store.precedesWithin deepest first second

/-- Values in order; texts always have one. -/
def sorted
    (store : Store)
    (values : List Value) :
    Except Fault (List Value) :=
  if values.all Value.isText then
    .ok (values.mergeSort Value.notAfter)
  else
    Sorting.sort store.precedes values

end Store

end ShiftReduce
