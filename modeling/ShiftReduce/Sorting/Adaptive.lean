import ShiftReduce.Sorting.Merge
import ShiftReduce.Sorting.Run

namespace ShiftReduce.Sorting

/-!
# Adaptive sorting

The items are cut into runs from left to right, and the runs are merged on the
way.  Which runs are merged first is decided by the powers of the boundaries
between them.  The power of a boundary is the number of halvings of the whole
sequence that it takes to part the middles of the two runs beside it.  A
boundary is given up, by merging the runs beside it, as soon as one of a smaller
power turns up to its right.

The sort is stable.  The comparison may have effects, such as failing, so it is
settled for every sequence which items are compared and in which order.
-/

variable {m : Type → Type} [Monad m] {α : Type}

/-- A run on the pile, with its place in the sequence and the power of its upper boundary. -/
structure PiledRun (α : Type) where
  start : Nat
  items : List α
  power : Nat

/-- The runs that wait to be merged, the last one first, and the patience of merges. -/
structure Pile (α : Type) where
  runs : List (PiledRun α)
  patience : Nat

/--
The number of halvings of a sequence that part two points, both given as twice
their distance from its start, for as many halvings as are granted.
-/
def halvingsApart
    (total : Nat) :
    (granted : Nat) → (first second : Nat) → Nat
  | 0, _, _ => 0
  | granted + 1, first, second =>
      if total ≤ first then
        1 + halvingsApart total granted (2 * (first - total)) (2 * (second - total))
      else if total ≤ second then
        1
      else
        1 + halvingsApart total granted (2 * first) (2 * second)

/--
The power of the boundary between two runs that follow each other.

The distance of their middles doubles with every halving, so no more halvings
are needed than there are items.
-/
def boundaryPower
    (total start firstLength secondLength : Nat) :
    Nat :=
  halvingsApart total (total + 1)
    (2 * start + firstLength)
    (2 * start + 2 * firstLength + secondLength)

/-- Merge two runs of a pile that follow each other. -/
def mergePiled
    (before : α → α → m Bool)
    (lower upper : PiledRun α)
    (patience : Nat) :
    m (PiledRun α × Nat) := do
  let (items, patience) ← merge before lower.items upper.items patience
  return (⟨lower.start, items, upper.power⟩, patience)

/-- Merge the last run with those before it, as long as boundaries of a greater power part them. -/
def giveUpBoundaries
    (before : α → α → m Bool)
    (power : Nat)
    (last : PiledRun α)
    (patience : Nat) :
    List (PiledRun α) → m (Pile α)
  | [] => return ⟨[{ last with power := power }], patience⟩
  | previous :: deeper => do
      if power < previous.power then
        let (merged, patience) ← mergePiled before previous last patience
        giveUpBoundaries before power merged patience deeper
      else
        return ⟨{ last with power := power } :: previous :: deeper, patience⟩

/-- Put a run on the pile, merging those runs whose boundary is to be given up. -/
def Pile.push
    (before : α → α → m Bool)
    (total : Nat)
    (pile : Pile α)
    (start : Nat)
    (items : List α) :
    m (Pile α) := do
  match pile.runs with
  | [] => return { pile with runs := [⟨start, items, 0⟩] }
  | last :: deeper =>
      let power :=
        boundaryPower total last.start last.items.length items.length
      let merged ← giveUpBoundaries before power last pile.patience deeper
      return { merged with runs := ⟨start, items, 0⟩ :: merged.runs }

/-- Cut items into runs and pile them, for as many runs as are granted. -/
def pileUp
    (before : α → α → m Bool)
    (total shortest : Nat) :
    (granted start : Nat) → List α → Pile α → m (Pile α)
  | 0, _, _, pile => return pile
  | _, _, [], pile => return pile
  | granted + 1, start, items, pile => do
      let (run, left) ← nextRun before shortest items
      let pile ← pile.push before total start run
      pileUp before total shortest granted (start + run.length) left pile

/--
Merge the runs of a pile until one is left, for as many merges as are granted.

The last run is merged with the one before it, unless the third to last run is
shorter than the last one; then the two runs before the last one are merged.
-/
def collapse
    (before : α → α → m Bool) :
    (granted : Nat) → Pile α → m (Pile α)
  | 0, pile => return pile
  | granted + 1, pile =>
      match pile.runs with
      | last :: previous :: third :: deeper =>
          if third.items.length < last.items.length then do
            let (merged, patience) ←
              mergePiled before third previous pile.patience
            collapse before granted ⟨last :: merged :: deeper, patience⟩
          else do
            let (merged, patience) ←
              mergePiled before previous last pile.patience
            collapse before granted ⟨merged :: third :: deeper, patience⟩
      | [last, previous] => do
          let (merged, patience) ←
            mergePiled before previous last pile.patience
          return ⟨[merged], patience⟩
      | _ => return pile

/-- The items in order, those of equal rank as they came. -/
def sort
    (before : α → α → m Bool)
    (items : List α) :
    m (List α) := do
  let total := items.length
  let pile ←
    pileUp before total (shortestRun total) total 0 items ⟨[], usualPatience⟩
  let pile ← collapse before total pile
  return pile.runs.flatMap PiledRun.items

end ShiftReduce.Sorting
