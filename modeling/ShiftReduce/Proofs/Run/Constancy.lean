import ShiftReduce.Proofs.Run.Continuation
import ShiftReduce.Proofs.Run.Path
import ShiftReduce.Proofs.Table.Filed

namespace ShiftReduce.Run

/-!
# Runs on tables with constant states

Observers may change lists and dictionaries that lie in the store and put new containers
there, but nothing can be put into a tuple (`Run.TuplesStay`).  So the states of a table that
are constants when a run begins are so throughout, and the table gives the same answers about
them (`Run.TuplesStay.answersStay`).
-/

variable
  {ω : Type}
  {deliver : Deliver ω}
  {table : Value}
  {start frame : Frame ω}

/-- No callback of a run changes a tuple that lies in the store. -/
def TuplesStay
    (deliver : Deliver ω)
    (table : Value)
    (start : Frame ω) :
    Prop :=
  ∀ name event moment,
    Callback deliver table start name event moment →
      moment.store.Keeps (frameAfter (deliver name event) moment).store

theorem Confined.tuplesStay
    (confined : Confined deliver table start) :
    TuplesStay deliver table start := by
  intro name event moment callback
  rw [confined.store_eq callback]
  exact .refl moment.store

/-- A parser that has just been loaded stands at the bottom of a path. -/
theorem onPath_of_loaded
    {table : Table}
    {tokens : List Value}
    (loaded : frame.parser.Loaded table tokens) :
    OnPath table frame.begun := by
  change table.Path frame.store frame.parser.states frame.parser.symbols
  rw [loaded.states, loaded.symbols]
  exact .bottom

namespace TuplesStay

/-- A run keeps the tuples that lay in the store when it began. -/
theorem reaches
    (stay : TuplesStay deliver table start)
    (reached : Reaches deliver table start frame) :
    start.store.Keeps frame.store :=
  reached.relates
    (fun earlier later => earlier.store.Keeps later.store)
    (fun frame => .refl frame.store)
    (fun before after => before.trans after)
    (fun prints => by rw [prints.store]; exact .refl _)
    (fun _ => .refl _)
    stay

/-- An observer finds the tuples that lay in the store when the run began. -/
theorem callback
    (stay : TuplesStay deliver table start)
    {name : String}
    {event : Event}
    {moment : Frame ω}
    (called : Callback deliver table start name event moment) :
    start.store.Keeps moment.store :=
  called.relates
    (fun earlier later => earlier.store.Keeps later.store)
    (fun frame => .refl frame.store)
    (fun before after => before.trans after)
    (fun prints => by rw [prints.store]; exact .refl _)
    (fun _ => .refl _)
    stay

/-- Where tuples stay, so do the answers of a table with constant states. -/
theorem answersStay
    {table : Table}
    (stay : TuplesStay deliver (.table table) start)
    (constants : table.ConstantStates start.store) :
    AnswersStay deliver table start := by
  intro name event moment called
  exact
    (constants.transfer (stay.callback called)).sameAnswers
      (stay name event moment called)

/-- Where tuples stay and nothing disturbs the parse, a run never leaves its path. -/
theorem onPath
    {table : Table}
    (stay : TuplesStay deliver (.table table) start)
    (undisturbed : Undisturbed deliver (.table table) start)
    (constants : table.ConstantStates start.store)
    (initially : OnPath table start)
    (reached : Reaches deliver (.table table) start frame) :
    OnPath table frame :=
  reached.holds (OnPath table)
    (performs_onPath undisturbed (stay.answersStay constants)) initially

/-- The answers of a table with constant states are those that it gave at first. -/
theorem sameAnswers
    {table : Table}
    (stay : TuplesStay deliver (.table table) start)
    (constants : table.ConstantStates start.store)
    (reached : Reaches deliver (.table table) start frame) :
    table.SameAnswers start.store frame.store :=
  constants.sameAnswers (stay.reaches reached)

end TuplesStay

end ShiftReduce.Run
