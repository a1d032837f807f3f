import ShiftReduce.Sorting.Search

namespace ShiftReduce.Sorting

/-!
# Runs

A run is a stretch of items that is in order already.  A stretch in which every
item comes before the one ahead of it is a run as well, once it is turned round.
Runs that are too short are extended: the items that follow are inserted one by
one, each at the boundary of the items that it does not come before.
-/

variable {m : Type → Type} [Monad m] {α : Type}

/--
The items that carry on a run after its last item so far, and the items left.

In a falling run each item comes before the one ahead of it; in a rising run
none does.
-/
def carryOn
    (before : α → α → m Bool)
    (falling : Bool)
    (last : α) :
    List α → m (List α × List α)
  | [] => return ([], [])
  | next :: rest => do
      let comesBefore ← before next last
      if comesBefore = falling then
        let (run, left) ← carryOn before falling next rest
        return (next :: run, left)
      else
        return ([], next :: rest)

/-- The run at the head of the items, turned to rise, and the items left. -/
def naturalRun
    (before : α → α → m Bool) :
    List α → m (List α × List α)
  | first :: second :: rest => do
      let falling ← before second first
      let (run, left) ← carryOn before falling second rest
      let items := first :: second :: run
      return (if falling then items.reverse else items, left)
  | items => return (items, [])

/-- Insert an item into a run, behind the items that it does not come before. -/
def insert
    (before : α → α → m Bool)
    (run : List α)
    (item : α) :
    m (List α) := do
  let place ←
    bisect
      (testAt (fun other => do return !(← before item other)) run)
      0
      run.length
  return run.take place ++ item :: run.drop place

/-- Insert items into a run, one after the other. -/
def insertAll
    (before : α → α → m Bool)
    (run : List α) :
    List α → m (List α)
  | [] => return run
  | item :: rest => do
      let run ← insert before run item
      insertAll before run rest

/-- Below this number of items there is one run only. -/
def runBound : Nat := 64

/-- Halve a number until it is below the bound, and add one if a half was ever lost. -/
def shortestRunFrom
    (lost : Nat)
    (count : Nat) :
    Nat :=
  if count < runBound then
    count + lost
  else
    shortestRunFrom (max lost (count % 2)) (count / 2)
termination_by count
decreasing_by
  simp only [runBound] at *
  omega

/-- How long a run has to be at least, given the number of all items. -/
def shortestRun
    (count : Nat) :
    Nat :=
  shortestRunFrom 0 count

/-- The next run, extended to a least length as far as there are items, and the items left. -/
def nextRun
    (before : α → α → m Bool)
    (shortest : Nat)
    (items : List α) :
    m (List α × List α) := do
  let (run, left) ← naturalRun before items
  let missing := shortest - run.length
  let run ← insertAll before run (left.take missing)
  return (run, left.drop missing)

end ShiftReduce.Sorting
