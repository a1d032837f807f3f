import ShiftReduce.Proofs.Parser.Parse
import ShiftReduce.Proofs.Run.Continuation
import ShiftReduce.Proofs.Run.Steady

namespace ShiftReduce

/-!
# Observers that keep away from the parser

Where no callback of a run changes the parser, the parser is engaged from the beginning
of the run on and stays so (`Run.Aloof.engaged`): it holds a table and tokens and has
run, so that another run is refused (`Run.start_of_engaged`).  It has not accepted
anything as long as someone is called back (`Run.Aloof.callback`).
-/

namespace Situation

variable
  {chosen : Decision}
  {before after : Situation}

/-- Carrying out an action leaves symbols on the stack. -/
theorem Moves.filled
    (moves : Moves chosen before after)
    (filled : before.symbols ≠ []) :
    after.symbols ≠ [] := by
  cases moves with
  | shift => simp
  | reduce => simp
  | accept => exact filled

/-- A sanctioned action that breaks off leaves symbols on the stack. -/
theorem Remains.filled
    {table : Table}
    {store : Store}
    (remains : before.Remains chosen after)
    (sanctioned : before.Sanctions table store chosen)
    (filled : before.symbols ≠ []) :
    after.symbols ≠ [] := by
  cases remains with
  | shift noToken => exact filled
  | reduce noHead =>
      cases sanctioned with
      | reduce _ _ _ _ shallow _ _ _ =>
          intro emptied
          exact
            absurd (List.drop_eq_nil_iff.mp emptied) (Nat.not_le.mpr shallow)

end Situation

namespace Parser

/-- A parser has begun to run, and still holds a table and tokens. -/
structure Engaged
    (parser : Parser) :
    Prop where
  ran : parser.ran = true
  loaded : parser.isLoaded = true

theorem isLoaded_iff
    (parser : Parser) :
    parser.isLoaded = true ↔
      parser.table.isNone = false ∧ parser.symbols ≠ [] := by
  simp [isLoaded]

/-- A parser that has kept its rest, and symbols on its stack, is still engaged. -/
theorem Engaged.rest
    {parser after : Parser}
    (engaged : parser.Engaged)
    (rest : after = parser.withParse after)
    (filled : parser.symbols ≠ [] → after.symbols ≠ []) :
    after.Engaged := by
  obtain ⟨held, stacked⟩ := parser.isLoaded_iff.mp engaged.loaded
  constructor
  · exact (congrArg Parser.ran rest).trans engaged.ran
  · rw [isLoaded_iff]
    exact ⟨(congrArg (·.table.isNone) rest).trans held, filled stacked⟩

end Parser

namespace Run

variable
  {ω : Type}
  {deliver : Deliver ω}
  {table : Value}
  {start frame : Frame ω}

/-- Only a table leads to a decision. -/
theorem Decides.of_table
    {before shown : Frame ω}
    {decision : Decision}
    (decides : Decides table before decision shown) :
    ∃ loaded, table = .table loaded := by
  cases decides with
  | intro lookahead selected printed decided =>
      cases table with
      | table loaded => exact ⟨loaded, rfl⟩
      | _ =>
          unfold Parser.select at selected
          cases top : before.parser.topState <;> rw [top] at selected <;>
            cases selected

/-- A parser that is engaged does not run again. -/
theorem start_of_engaged
    (engaged : frame.parser.Engaged)
    (deliver : Deliver ω)
    (granted : Nat) :
    Run.start deliver granted frame = .error (.fault .alreadyRan) frame := by
  rw [Run.start, bind_of_ok (parser_ok frame), engaged.loaded, engaged.ran]
  rfl

/-- No callback of a run changes the parser, whether it fails or not. -/
def Aloof
    (deliver : Deliver ω)
    (table : Value)
    (start : Frame ω) :
    Prop :=
  ∀ name event moment,
    Callback deliver table start name event moment →
      (frameAfter (deliver name event) moment).parser = moment.parser

namespace Aloof

variable
  {before shown told : Frame ω}
  {decision : Decision}

/-- Telling the observers of a decision leaves the parser as it was. -/
theorem told_eq
    (aloof : Aloof deliver table start)
    (reaches : Reaches deliver table start before)
    (decides : Decides table before decision shown)
    (notified : notify deliver decision.event shown = .ok () told) :
    told.parser = before.parser := by
  have kept :=
    notify_relates (fun before after => after.parser = before.parser)
      (fun _ => rfl) (fun first second => second.trans first) aloof reaches
      decides
  rw [frameAfter_of_ok notified] at kept
  exact kept.trans decides.printsTo.parser

/-- An observer finds the parser as it was when its action was decided. -/
theorem tells_eq
    (aloof : Aloof deliver table start)
    {name : String}
    {moment : Frame ω}
    (reaches : Reaches deliver table start before)
    (decides : Decides table before decision shown)
    (tells :
      Tells deliver decision.event shown.parser.registry.listeners shown name
        moment) :
    moment.parser = before.parser := by
  have kept :=
    tells_relates (fun before after => after.parser = before.parser)
      (fun _ => rfl) (fun first second => second.trans first) aloof reaches
      decides tells
  exact kept.trans decides.printsTo.parser

/-- An action that is carried out keeps the parser engaged. -/
theorem performs_engaged
    (aloof : Aloof deliver table start)
    {after : Frame ω}
    (reaches : Reaches deliver table start before)
    (engaged : before.parser.Engaged)
    (performs : Performs deliver table before decision after) :
    after.parser.Engaged := by
  cases performs with
  | @intro shown told _ parser decides notified committed prints =>
      obtain ⟨loaded, rfl⟩ := decides.of_table
      have sanctioned := decides.sanctioned
      rw [Frame.situation, ← aloof.told_eq reaches decides notified]
        at sanctioned
      rw [← aloof.told_eq reaches decides notified] at engaged
      rw [prints.parser]
      exact
        engaged.rest (Parser.commit_rest committed)
          (Parser.commit_moves sanctioned rfl committed).filled

theorem reaches_engaged
    (aloof : Aloof deliver table start)
    (engaged : start.parser.Engaged)
    (reaches : Reaches deliver table start frame) :
    frame.parser.Engaged :=
  reaches.holds (·.parser.Engaged) aloof.performs_engaged engaged

/-- At the end of a run the parser is still engaged. -/
theorem drive_engaged
    (aloof : Aloof deliver table start)
    (engaged : start.parser.Engaged)
    (granted : Nat) :
    (frameAfter (drive deliver table granted) start).parser.Engaged := by
  refine
    drive_exits (·.parser.Engaged) (·.parser.Engaged) ?_
      aloof.performs_engaged ?_ ?_ granted .start engaged
  · intro before after engaged prints
    rwa [prints.parser]
  · intro before decision shown halt after reaches engaged decides interrupted
    have kept :=
      notify_relates (fun before after => after.parser = before.parser)
        (fun _ => rfl) (fun first second => second.trans first) aloof reaches
        decides
    rw [frameAfter_of_error interrupted] at kept
    rwa [kept, decides.printsTo.parser]
  · intro before decision shown told cause parser reaches engaged decides
      notified broken
    obtain ⟨loaded, rfl⟩ := decides.of_table
    have sanctioned := decides.sanctioned
    rw [Frame.situation, ← aloof.told_eq reaches decides notified]
      at sanctioned
    rw [← aloof.told_eq reaches decides notified] at engaged
    exact
      engaged.rest (Parser.broken_rest broken)
        ((Parser.commit_remains sanctioned rfl broken).filled sanctioned)

/-- Nothing is accepted before the end of a run. -/
theorem reaches_unaccepted
    (aloof : Aloof deliver table start)
    (unaccepted : start.parser.accepted = false)
    (reaches : Reaches deliver table start frame) :
    frame.parser.accepted = false := by
  induction reaches with
  | start => exact unaccepted
  | @turn token rest before after reaches lookahead turned inductionHypothesis =>
      have ends := turn_turned lookahead deliver table
      rw [turned] at ends
      cases ends with
      | performed performs goesOn =>
          cases performs with
          | @intro shown told _ parser decides notified committed prints =>
              obtain ⟨loaded, rfl⟩ := decides.of_table
              have kept := aloof.told_eq reaches decides notified
              have accepted :=
                Parser.commit_accepted decides.sanctioned
                  (congrArg Parser.situation kept) committed
              rw [← goesOn] at accepted
              rw [prints.parser]
              exact accepted.trans ((congrArg Parser.accepted kept).trans
                inductionHypothesis)

/-- Observers are called back by a parser that is engaged and has not accepted. -/
theorem callback
    (aloof : Aloof deliver table start)
    (engaged : start.parser.Engaged)
    (unaccepted : start.parser.accepted = false)
    {name : String}
    {event : Event}
    {moment : Frame ω}
    (callback : Callback deliver table start name event moment) :
    moment.parser.Engaged ∧ moment.parser.accepted = false := by
  cases callback with
  | intro reaches decides tells =>
      rw [aloof.tells_eq reaches decides tells]
      exact
        ⟨aloof.reaches_engaged engaged reaches,
          aloof.reaches_unaccepted unaccepted reaches⟩

end Aloof

end Run

end ShiftReduce
