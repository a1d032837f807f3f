import ShiftReduce.Fault

namespace ShiftReduce

/-!
# Activities

Parsers and their observers change states as they go, and whatever they have
changed stays changed when they fail.  An activity therefore ends with a state
in either case.  Some activities have no bound of their own; those are granted
a number of steps, and running out of them is kept apart from every fault.
-/

/--
Why an activity ended early: by a fault, or because it was still going on after
the number of steps that it was granted.
-/
inductive Halt where
  | fault (cause : Fault)
  | outOfSteps

/-- An activity that changes a state, and may halt with the state changed so far. -/
abbrev Activity (σ : Type) := EStateM Halt σ

end ShiftReduce
