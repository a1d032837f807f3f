import ShiftReduce.Proofs.Grammar.ExpressionAutomaton
import ShiftReduce.Proofs.Run.Aloof
import ShiftReduce.Proofs.Run.Constancy
import ShiftReduce.Proofs.Run.Halting
import ShiftReduce.Proofs.Run.Noninterference
import ShiftReduce.Proofs.Table.Descent

namespace ShiftReduce.Run

/-!
# Runs come to an end

A run whose table has no endless reductions ends, whatever the tokens are: every action that
it goes on from lessens the weight of its situation (`Run.performs_weight_lt`), so a certain
number of turns is enough, and to be granted more makes no difference (`Run.drive_ends`).

Observers may do what they like, as long as they leave the parse and the tuples in the store
alone and come to an end themselves, be it by a fault.
-/

variable
  {ω : Type}
  {deliver : Deliver ω}
  {table : Table}
  {start frame before after : Frame ω}

/-- Every callback of a run comes to an end, though it may be by a fault. -/
def CallbacksEnd
    (deliver : Deliver ω)
    (table : Value)
    (start : Frame ω) :
    Prop :=
  ∀ name event moment,
    Callback deliver table start name event moment →
      ∀ after, deliver name event moment ≠ .error .outOfSteps after

/-- Where callbacks end, a run that halts does so by a fault. -/
theorem CallbacksEnd.halts_by_fault
    {table : Value}
    {halt : Halt}
    (callbacksEnd : CallbacksEnd deliver table start)
    (reaches : Reaches deliver table start before)
    (halts : Halts deliver table before halt after) :
    ∃ cause, halt = .fault cause := by
  cases halts with
  | @raised decision shown moment _ name _ decides interrupted tells raised =>
      cases halt with
      | fault cause => exact ⟨cause, rfl⟩
      | outOfSteps =>
          exact
            absurd raised
              (callbacksEnd name decision.event moment
                (.intro reaches decides tells) after)
  | _ => exact ⟨_, rfl⟩

section Weights

variable
  (undisturbed : Undisturbed deliver (.table table) start)
  (tuples : TuplesStay deliver (.table table) start)
  (constants : table.ConstantStates start.store)
  (ends : table.ReductionsEnd start.store)
  (initially : OnPath table start)

include undisturbed tuples constants ends initially

/-- Every action that a run goes on from lessens the weight of its situation. -/
theorem performs_weight_lt
    {decision : Decision}
    (reaches : Reaches deliver (.table table) start before)
    (performs : Performs deliver (.table table) before decision after)
    (goesOn : decision.progress = .running) :
    after.situation.weight table start.store <
      before.situation.weight table start.store := by
  have onPath : OnPath table before :=
    tuples.onPath undisturbed constants initially reaches
  obtain ⟨sanctioned, moved⟩ := undisturbed.moves reaches performs
  refine
    moved.weight_lt ends (fun _ member => Table.Path.hasState onPath member)
      (tuples.sameAnswers constants reaches).symm sanctioned ?_
  rintro state rfl
  cases goesOn

/-- From wherever a run has come to, a certain number of turns is enough to end it. -/
theorem drive_ends
    (callbacksEnd : CallbacksEnd deliver (.table table) start)
    (reaches : Reaches deliver (.table table) start frame) :
    ∃ granted,
      (∀ more,
        drive deliver (.table table) (granted + more) frame =
          drive deliver (.table table) granted frame) ∧
        ((∃ after, drive deliver (.table table) granted frame = .ok () after) ∨
          ∃ cause after,
            drive deliver (.table table) granted frame =
              .error (.fault cause) after) := by
  -- The induction is on the weight of the situation, which every further turn lessens.
  generalize measured : frame.situation.weight table start.store = weight
  induction weight using WellFoundedLT.induction generalizing frame with
  | ind weight inductionHypothesis =>
      subst measured
      cases queue : frame.parser.pending with
      | nil =>
          have exhausted := drive_of_nothing queue deliver (.table table)
          refine ⟨1, fun more => ?_, .inr ?_⟩
          · rw [Nat.add_comm, exhausted more, exhausted 0]
          · rw [exhausted 0]
            cases frame.parser.topState with
            | ok state => exact ⟨_, _, rfl⟩
            | error cause => exact ⟨_, _, rfl⟩
      | cons token rest =>
          have unfolded := drive_of_lookahead queue deliver (.table table)
          cases turned : turn deliver (.table table) token frame with
          | error halt after =>
              rw [turned] at unfolded
              obtain ⟨cause, rfl⟩ :=
                callbacksEnd.halts_by_fault reaches (turn_halts queue turned)
              refine ⟨1, fun more => ?_, .inr ⟨cause, after, unfolded 0⟩⟩
              rw [Nat.add_comm, unfolded more, unfolded 0]
          | ok progress next =>
              rw [turned] at unfolded
              cases progress with
              | finished =>
                  refine ⟨1, fun more => ?_, .inl ⟨next, unfolded 0⟩⟩
                  rw [Nat.add_comm, unfolded more, unfolded 0]
              | running =>
                  have turnEnds := turn_turned queue deliver (.table table)
                  rw [turned] at turnEnds
                  have lighter :
                      next.situation.weight table start.store <
                        frame.situation.weight table start.store := by
                    cases turnEnds with
                    | performed performs goesOn =>
                        exact
                          performs_weight_lt undisturbed tuples constants ends
                            initially reaches performs goesOn.symm
                  obtain ⟨granted, same, outcome⟩ :=
                    inductionHypothesis _ lighter (.turn reaches queue turned) rfl
                  refine ⟨granted + 1, fun more => ?_, ?_⟩
                  · rw [Nat.add_right_comm, unfolded, unfolded]
                    exact same more
                  · rw [unfolded]
                    exact outcome

end Weights

section Fixtures

open Grammar

/-- The one state of the table of a letter that is left by a rule of one symbol has a number. -/
def letterNumber :
    Value → Nat
  | .int 1 => 1
  | _ => 0

/-- From a name, rules of one symbol lead to a factor, a product and a sum. -/
def expressionNumber :
    Value → Nat
  | .int 5 => 3
  | .int 3 => 2
  | .int 2 => 1
  | _ => 0

theorem single_reductionsEnd
    (store : Store) :
    Single.table.ReductionsEnd store :=
  single_orderly.reductionsEnd (rfl : Single.table.descends letterNumber = true) store

theorem expression_reductionsEnd
    (store : Store) :
    Expression.table.ReductionsEnd store :=
  Expression.table_orderly.reductionsEnd
    (rfl : Expression.table.descends expressionNumber = true) store

end Fixtures

/--
Every run on a table without endless reductions ends: it accepts or fails after a certain
number of turns, and would not do otherwise if it were granted more.

The states of the table are constants, and the tokens are any; the observers leave the parse
and the tuples in the store alone, and come to an end themselves.  The tables of one letter
and of expressions are without endless reductions.
-/
theorem every_run_ends :
    (∀ (deliver : Deliver ω) (table : Table) (frame : Frame ω) (tokens : List Value),
      frame.parser.Loaded table tokens →
        table.ConstantStates frame.store →
        table.ReductionsEnd frame.store →
        Undisturbed deliver (.table table) frame.begun →
        TuplesStay deliver (.table table) frame.begun →
        CallbacksEnd deliver (.table table) frame.begun →
          ∃ granted,
            (∀ more,
              Run.start deliver (granted + more) frame =
                Run.start deliver granted frame) ∧
              ((∃ after, Run.start deliver granted frame = .ok () after) ∨
                ∃ cause after,
                  Run.start deliver granted frame = .error (.fault cause) after)) ∧
    ∀ store : Store,
      Grammar.Single.table.ReductionsEnd store ∧
        Grammar.Expression.table.ReductionsEnd store := by
  refine ⟨?_, fun store => ⟨single_reductionsEnd store, expression_reductionsEnd store⟩⟩
  intro deliver table frame tokens loaded constants ends undisturbed tuples callbacksEnd
  cases ran : frame.parser.ran with
  | true =>
      have refused := start_of_engaged ⟨ran, loaded.isLoaded⟩ deliver
      refine ⟨0, fun more => ?_, .inr ⟨_, _, refused 0⟩⟩
      rw [refused, refused]
  | false =>
      have begins := start_begins loaded.isLoaded ran deliver
      rw [loaded.held] at begins
      obtain ⟨granted, same, outcome⟩ :=
        drive_ends undisturbed tuples constants ends (onPath_of_loaded loaded)
          callbacksEnd .start
      refine ⟨granted, fun more => ?_, ?_⟩
      · rw [begins, begins]
        exact same more
      · rw [begins]
        exact outcome

section Brackets

open Grammar

/-- A parser about to read a name in brackets, which is a factor, a product and a sum. -/
def bracketed : Frame (List Event) :=
  Frame.fresh Expression.table ((Expression.tokens "( x )").map .token) ["log"] []

/-- Reading a name in brackets comes to an end. -/
theorem bracketed_run_ends :
    ∃ granted,
      (∀ more,
        Run.start (logging "log") (granted + more) bracketed =
          Run.start (logging "log") granted bracketed) ∧
        ((∃ after, Run.start (logging "log") granted bracketed = .ok () after) ∨
          ∃ cause after,
            Run.start (logging "log") granted bracketed =
              .error (.fault cause) after) := by
  have confined :=
    logging_confined "log" (.table Expression.table) bracketed.begun
  have callbacksEnd :
      CallbacksEnd (logging "log") (.table Expression.table) bracketed.begun := by
    intro name event moment _ after raised
    rw [logging_ok] at raised
    cases raised
  exact
    every_run_ends.1 (logging "log") Expression.table bracketed _
      (Frame.fresh_loaded ..) (Expression.table_orderly.constantStates _)
      (expression_reductionsEnd _) confined.undisturbed confined.tuplesStay
      callbacksEnd

end Brackets

end ShiftReduce.Run
