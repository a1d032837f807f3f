import ShiftReduce.Sorting.Search

namespace ShiftReduce.Sorting

/-!
# Merging two runs

Two runs that follow each other are merged into one, in which items of equal
rank stay as they were.  What is in place already is left out: the items of the
lower run that no item of the upper run comes before, and the items of the upper
run that come before no item of the lower one.

The shorter of the two remaining stretches decides where to begin: with the
least items if it belongs to the lower run, and with the greatest ones if it
belongs to the upper run.  Items are taken from the two runs in a contest of
their next items.  When a run has won often enough in a row, the merge leaps:
it searches for the whole stretch that one run wins, and takes it at once.  It
goes back to contests when the stretches become short.  How many wins it takes
is the merge's patience, which grows and shrinks with the success of leaps, and
is carried over from merge to merge.
-/

/-- Whether a merge begins with the least items or with the greatest ones. -/
inductive Direction where
  | upward
  | downward
  deriving Repr, DecidableEq

/-- What a merge does next. -/
inductive Phase where
  | contest (lowerWins upperWins : Nat)
  | leapLower (again : Bool)
  | followUpper (leaptLower : Nat)
  | leapUpper (leaptLower : Nat)
  | followLower (leaptLower leaptUpper : Nat)
  deriving Repr, DecidableEq

/--
A merge under way: the items left of either run and those taken, each list with
the next or the newest item first.
-/
structure Merging (α : Type) where
  direction : Direction
  lower : List α
  upper : List α
  taken : List α
  patience : Nat
  phase : Phase

/-- The patience of the first merge, and the length from which leaps are worth while. -/
def usualPatience : Nat := 7

namespace Merging

variable {m : Type → Type} [Monad m] {α : Type}

/-- Take items from the lower run. -/
def takeLower
    (merging : Merging α)
    (count : Nat) :
    Merging α :=
  { merging with
    lower := merging.lower.drop count
    taken := (merging.lower.take count).reverse ++ merging.taken }

/-- Take items from the upper run. -/
def takeUpper
    (merging : Merging α)
    (count : Nat) :
    Merging α :=
  { merging with
    upper := merging.upper.drop count
    taken := (merging.upper.take count).reverse ++ merging.taken }

/--
The order in which the items left are taken, once that is settled.

It is settled when either run is used up.  It is also settled when the shorter
one, that is the lower run of a merge that goes upward and the upper run of one
that goes downward, has a single item left: that item is known to come last.
-/
def rest?
    (merging : Merging α) :
    Option (List α) :=
  match merging.direction, merging.lower, merging.upper with
  | _, [], upper => some upper
  | _, lower, [] => some lower
  | .upward, [last], upper => some (upper ++ [last])
  | .downward, lower, [last] => some (lower ++ [last])
  | _, _, _ => none

/-- Go over to another phase, unless the merge is settled. -/
def proceed
    (merging : Merging α)
    (next : Merging α → Merging α) :
    Merging α :=
  if merging.rest?.isSome then
    merging
  else
    next merging

/--
How many of the next items of a run are taken before the other run has its turn.

The test holds for the lesser items of the run, so a merge that goes downward
takes the items for which it fails.
-/
def reach
    (direction : Direction)
    (test : α → m Bool)
    (items : List α) :
    m Nat :=
  match direction with
  | .upward => gallop (testAt test items) items.length 0
  | .downward => do
      let boundary ←
        gallop (testAt test items.reverse) items.length (items.length - 1)
      return items.length - boundary

/-- Let the next items of the two runs compete, and take the winner. -/
def contest
    (before : α → α → m Bool)
    (merging : Merging α)
    (lowerWins upperWins : Nat)
    (lowerNext upperNext : α) :
    m (Merging α) := do
  let upperIsLess ← before upperNext lowerNext
  if upperIsLess = (merging.direction == .upward) then
    return (merging.takeUpper 1).proceed fun merging =>
      if merging.patience ≤ upperWins + 1 then
        { merging with phase := .leapLower false }
      else
        { merging with phase := .contest 0 (upperWins + 1) }
  else
    return (merging.takeLower 1).proceed fun merging =>
      if merging.patience ≤ lowerWins + 1 then
        { merging with phase := .leapLower false }
      else
        { merging with phase := .contest (lowerWins + 1) 0 }

/-- Take the items of the lower run up to where the upper run has its turn. -/
def leapLower
    (before : α → α → m Bool)
    (merging : Merging α)
    (again : Bool)
    (upperNext : α) :
    m (Merging α) := do
  let patience :=
    if again && 1 < merging.patience then
      merging.patience - 1
    else
      merging.patience
  let count ←
    reach merging.direction
      (fun item => do return !(← before upperNext item))
      merging.lower
  let merging := { merging with patience := patience }
  return (merging.takeLower count).proceed fun merging =>
    { merging with phase := .followUpper count }

/-- Take the items of the upper run up to where the lower run has its turn. -/
def leapUpper
    (before : α → α → m Bool)
    (merging : Merging α)
    (leaptLower : Nat)
    (lowerNext : α) :
    m (Merging α) := do
  let count ←
    reach merging.direction
      (fun item => before item lowerNext)
      merging.upper
  return (merging.takeUpper count).proceed fun merging =>
    { merging with phase := .followLower leaptLower count }

/-- Take the item that ends a round of leaps, and leap again if the round was worth while. -/
def followLower
    (merging : Merging α)
    (leaptLower leaptUpper : Nat) :
    Merging α :=
  (merging.takeLower 1).proceed fun merging =>
    if usualPatience ≤ leaptLower ∨ usualPatience ≤ leaptUpper then
      { merging with phase := .leapLower true }
    else
      { merging with
        phase := .contest 0 0
        patience := merging.patience + 1 }

/-- One step of a merge that is not settled. -/
def step
    (before : α → α → m Bool)
    (merging : Merging α) :
    m (Merging α) :=
  match merging.lower, merging.upper with
  | lowerNext :: _, upperNext :: _ =>
      match merging.phase with
      | .contest lowerWins upperWins =>
          merging.contest before lowerWins upperWins lowerNext upperNext
      | .leapLower again => merging.leapLower before again upperNext
      | .followUpper leaptLower =>
          return (merging.takeUpper 1).proceed fun merging =>
            { merging with phase := .leapUpper leaptLower }
      | .leapUpper leaptLower => merging.leapUpper before leaptLower lowerNext
      | .followLower leaptLower leaptUpper =>
          return merging.followLower leaptLower leaptUpper
  | _, _ => return merging

/-- Take steps until the merge is settled: all items in the order of taking, and the patience. -/
def finish
    (before : α → α → m Bool) :
    (steps : Nat) → Merging α → m (List α × Nat)
  | 0, merging =>
      return (merging.taken.reverse ++ merging.lower ++ merging.upper,
        merging.patience)
  | steps + 1, merging =>
      match merging.rest? with
      | some rest => return (merging.taken.reverse ++ rest, merging.patience)
      | none => do
          let merging ← merging.step before
          finish before steps merging

end Merging

variable {m : Type → Type} [Monad m] {α : Type}

/--
Merge two stretches of which the first item of all belongs to the upper one and
the last item of all to the lower one.

A round of four steps takes two items at least, so twice as many steps as there
are items, and a round more, suffice.
-/
def mergeStretches
    (before : α → α → m Bool)
    (lower upper : List α)
    (patience : Nat) :
    m (List α × Nat) := do
  let steps := 2 * (lower.length + upper.length) + 4
  if lower.length ≤ upper.length then
    let merging : Merging α :=
      ⟨.upward, lower, upper, [], patience, .contest 0 0⟩
    Merging.finish before steps (merging.takeUpper 1)
  else
    let merging : Merging α :=
      ⟨.downward, lower.reverse, upper.reverse, [], patience, .contest 0 0⟩
    let (items, patience) ← Merging.finish before steps (merging.takeLower 1)
    return (items.reverse, patience)

/-- Merge two runs that follow each other. -/
def merge
    (before : α → α → m Bool)
    (lower upper : List α)
    (patience : Nat) :
    m (List α × Nat) := do
  match upper with
  | [] => return (lower, patience)
  | least :: _ =>
      let placed ←
        gallop
          (testAt (fun item => do return !(← before least item)) lower)
          lower.length
          0
      match (lower.drop placed).getLast? with
      | none => return (lower ++ upper, patience)
      | some greatest =>
          let reached ←
            gallop
              (testAt (fun item => before item greatest) upper)
              upper.length
              (upper.length - 1)
          if reached = 0 then
            return (lower ++ upper, patience)
          else
            let (merged, patience) ←
              mergeStretches before (lower.drop placed) (upper.take reached) patience
            return (lower.take placed ++ merged ++ upper.drop reached, patience)

end ShiftReduce.Sorting
