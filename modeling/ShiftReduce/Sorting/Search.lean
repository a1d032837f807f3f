namespace ShiftReduce.Sorting

/-!
# Searching for a boundary

A test that holds for the first items of a sequence and fails for the others has
a boundary: the number of items for which it holds.  `bisect` finds it by
halving the stretch where it may lie.  `gallop` starts from a guess, first walks
away from it in growing strides, and then halves the last of them.

Tests may have effects, such as failing.  Which items are tested, and in which
order, is therefore part of what these functions promise.
-/

variable {m : Type → Type} [Monad m]

/-- The boundary of a test, known to lie between two bounds. -/
def bisect
    (test : Nat → m Bool)
    (low high : Nat) :
    m Nat := do
  if low < high then
    let middle := low + (high - low) / 2
    if ← test middle then
      bisect test (middle + 1) high
    else
      bisect test low middle
  else
    return high
termination_by high - low

/--
The last offset at which a test holds, and the first one at which it fails or
which is out of reach.  The offsets tried are one, three, seven and so on.
-/
def stride
    (test : Nat → m Bool)
    (limit last offset : Nat) :
    m (Nat × Nat) := do
  if offset < limit then
    if ← test offset then
      stride test limit offset (2 * offset + 1)
    else
      return (last, offset)
  else
    return (last, limit)
termination_by limit - offset

/-- The boundary of a test on a number of items, searched from a guess. -/
def gallop
    (test : Nat → m Bool)
    (count guess : Nat) :
    m Nat := do
  if ← test guess then
    let (last, offset) ←
      stride (fun offset => test (guess + offset)) (count - guess) 0 1
    bisect test (guess + last + 1) (guess + offset)
  else
    let (last, offset) ←
      stride
        (fun offset => do return !(← test (guess - offset)))
        (guess + 1)
        0
        1
    bisect test (guess + 1 - offset) (guess - last)

/-- A test of items as a test of their positions; it fails where there is no item. -/
def testAt
    {α : Type}
    (test : α → m Bool)
    (items : List α)
    (position : Nat) :
    m Bool :=
  match items[position]? with
  | some item => test item
  | none => return false

end ShiftReduce.Sorting
