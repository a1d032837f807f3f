import ShiftReduce.Proofs.Machine.Standing
import ShiftReduce.Proofs.Run.Record

namespace ShiftReduce

/-!
# A parser in step with the machine

With an orderly table, and with observers that let a run take its course
(`Run.Attended`), a parser that stands where the machine stands does in one turn
what the machine does in one step (`Run.turn_follows`).  So a run of a number of
turns concludes as the machine does after as many steps (`Run.drive_concludes`), and
an observer hears what the machine lists (`Run.drive_records`).
-/

namespace Run

variable
  {ω : Type}
  {deliver : Deliver ω}
  {table : Table}
  {met : Token → Prop}
  {configuration : Machine.Configuration}
  {frame : Frame ω}

/--
The observers of a run let it take its course: they return, they leave the parse
alone, and what the machine meets from a first configuration on stays plain data.
-/
structure Attended
    (deliver : Deliver ω)
    (table : Table)
    (start : Frame ω)
    (first : Machine.Configuration)
    (met : Token → Prop) :
    Prop where
  undisturbed : Undisturbed deliver (.table table) start
  ends : NotificationsEnd deliver (.table table) start
  meets :
    ∀ events reached,
      Machine.Steps table first events reached →
        ∀ token, reached.Meets token → met token
  keeps :
    ∀ name event moment,
      Callback deliver (.table table) start name event moment →
        ∀ token,
          met token →
            moment.store.IsPlain token.value →
              (frameAfter (deliver name event) moment).store.IsPlain token.value

section Turns

variable
  {start shown : Frame ω}
  {first next : Machine.Configuration}
  {decision : Decision}

theorem Attended.notify_plain
    (attended : Attended deliver table start first met)
    (reaches : Reaches deliver (.table table) start frame)
    (decides : Decides (.table table) frame decision shown)
    (plain : ∀ token, met token → frame.store.IsPlain token.value) :
    ∀ token,
      met token →
        (frameAfter (notify deliver decision.event) shown).store.IsPlain
          token.value := by
  intro token meets
  have kept :=
    notify_relates
      (fun earlier later =>
        earlier.store.IsPlain token.value → later.store.IsPlain token.value)
      (fun _ => id)
      (fun first second => second ∘ first)
      (fun name event moment callback =>
        attended.keeps name event moment callback token meets)
      reaches decides
  apply kept
  rw [decides.printsTo.store]
  exact plain token meets

/-- A decision that leads on is performed to its end. -/
theorem perform_leads
    (attended : Attended deliver table start first met)
    (reaches : Reaches deliver (.table table) start frame)
    (stands : Stands met configuration frame)
    (decides : Decides (.table table) frame decision shown)
    (runs : decision.progress = .running)
    (leads : Leads decision configuration next)
    (constants : next.HasConstants)
    (meets : ∀ token, next.Meets token → met token) :
    ∃ after,
      Performs deliver (.table table) frame decision after ∧
        perform deliver decision shown = .ok .running after ∧
        Stands met next after ∧
        after.parser.accepted = frame.parser.accepted := by
  obtain ⟨told, notified⟩ := attended.ends frame decision shown reaches decides
  have spares := attended.undisturbed.notify_spares reaches decides
  have plain := attended.notify_plain reaches decides stands.plain
  rw [frameAfter_of_ok notified] at spares plain
  obtain ⟨parser, committed, moved, verdict⟩ :=
    leads told.parser (spares.situation.trans stands.situation)
  have standsNext : Stands met next { told with parser := parser } :=
    ⟨moved, constants, meets, plain⟩
  have operated :
      operate (Parser.commit decision) told =
        .ok () { told with parser := parser } := by
    simp only [operate, committed]
  unfold perform
  rw [bind_of_ok notified, bind_of_ok operated]
  cases decision with
  | shift state token target =>
      exact ⟨_, .intro decides notified committed (.refl _), rfl, standsNext,
        verdict.trans spares.accepted⟩
  | reduce state production target =>
      obtain ⟨after, printed, prints⟩ := printStack_ok standsNext.stack_fits
      have ends :
          (printStack >>= fun _ => pure Progress.running : Run ω Progress)
              { told with parser := parser } =
            .ok .running after :=
        bind_of_ok printed
      refine ⟨after, .intro decides notified committed prints, ends,
        standsNext.prints prints, ?_⟩
      rw [prints.parser]
      exact verdict.trans spares.accepted
  | accept state =>
      cases runs

/-- An acceptance is performed to its end. -/
theorem perform_accepts
    (attended : Attended deliver table start first met)
    (reaches : Reaches deliver (.table table) start frame)
    {state : Value}
    (decides : Decides (.table table) frame (.accept state) shown) :
    ∃ after,
      Performs deliver (.table table) frame (.accept state) after ∧
        perform deliver (.accept state) shown = .ok .finished after ∧
        after.situation = frame.situation ∧
        after.parser.accepted = true := by
  obtain ⟨told, notified⟩ :=
    attended.ends frame (.accept state) shown reaches decides
  have spares := attended.undisturbed.notify_spares reaches decides
  rw [frameAfter_of_ok notified] at spares
  unfold perform
  rw [bind_of_ok notified]
  exact ⟨_, .intro decides notified rfl (.refl _), rfl, spares.situation, rfl⟩

end Turns

/-- A turn does what a step of the machine does. -/
inductive Followed
    (deliver : Deliver ω)
    (table : Table)
    (met : Token → Prop)
    (configuration : Machine.Configuration)
    (frame : Frame ω) :
    Machine.Outcome → EStateM.Result Halt (Frame ω) Progress → Prop where
  | goesOn
      {event : Event}
      {next : Machine.Configuration}
      {decision : Decision}
      {after : Frame ω}
      (performs : Performs deliver (.table table) frame decision after)
      (tells : decision.event = event)
      (stands : Stands met next after)
      (verdict : after.parser.accepted = frame.parser.accepted) :
      Followed deliver table met configuration frame
        (.goesOn event next)
        (.ok .running after)
  | accepted
      {state : Value}
      {after : Frame ω}
      (performs : Performs deliver (.table table) frame (.accept state) after)
      (situation : after.situation = frame.situation)
      (verdict : after.parser.accepted = true) :
      Followed deliver table met configuration frame
        (.ends (.accepted state))
        (.ok .finished after)
  | refused
      {state : Value}
      {token : Token}
      {expected : List Value}
      {after : Frame ω}
      (prints : frame.PrintsTo after)
      (top : state = configuration.top)
      (lookahead : configuration.pending.head? = some token) :
      Followed deliver table met configuration frame
        (.ends (.refused state token))
        (.error
          (.fault
            (.unexpectedToken state (after.store.resolve (.token token))
              expected))
          after)
  | stuck
      {defect : Defect}
      {after : Frame ω}
      (prints : frame.PrintsTo after) :
      Followed deliver table met configuration frame
        (.ends (.stuck defect))
        (.error
          (.fault (.malformedTable (after.store.resolveDefect defect)))
          after)

section Runs

variable
  {start : Frame ω}
  {first : Machine.Configuration}
  {events : List Event}

/-- Nothing keeps a turn from coming to the question what the parser decides. -/
theorem Stands.turn_eq
    (orderly : table.Orderly)
    (stands : Stands met configuration frame)
    {token : Token}
    {rest : List Token}
    (queue : configuration.pending = token :: rest)
    (deliver : Deliver ω) :
    ∃ shown,
      frame.PrintsTo shown ∧
        (∀ decision,
          frame.parser.decision frame.store
              ⟨table, configuration.top, .token token,
                table.actionAt configuration.top token.kind⟩ =
              .ok decision →
            Decides (.table table) frame decision shown) ∧
        turn deliver (.table table) (.token token) frame =
          (demand
              (frame.parser.decision frame.store
                ⟨table, configuration.top, .token token,
                  table.actionAt configuration.top token.kind⟩) >>=
            perform deliver) shown := by
  have lookahead : configuration.pending.head? = some token := by
    rw [queue]
    rfl
  have pending := stands.pending_of_lookahead queue
  have selected := stands.select_eq orderly token
  obtain ⟨shown, printed, prints⟩ :=
    stands.printSelection_ok
      ⟨table, configuration.top, .token token,
        table.actionAt configuration.top token.kind⟩
      rfl lookahead
      (orderly.actionAt_proper configuration.top token.kind)
  refine ⟨shown, prints, ?_, ?_⟩
  · intro decision decided
    exact .intro pending selected printed decided
  · change
      (demand (frame.parser.select frame.store (.table table) (.token token)) >>=
        fun selection =>
          printSelection selection >>= fun _ =>
            demand (frame.parser.decision frame.store selection) >>=
              perform deliver) frame = _
    rw [selected, bind_of_ok (demand_ok _ frame), bind_of_ok printed]

/-- With an orderly table, every turn does what the machine does in a step. -/
theorem turn_follows
    (orderly : table.Orderly)
    (attended : Attended deliver table start first met)
    (reaches : Reaches deliver (.table table) start frame)
    (steps : Machine.Steps table first events configuration)
    (stands : Stands met configuration frame)
    {token : Token}
    {rest : List Token}
    (queue : configuration.pending = token :: rest) :
    Followed deliver table met configuration frame
      (Machine.step table configuration)
      (turn deliver (.table table) (.token token) frame) := by
  obtain ⟨shown, prints, decides, unfolded⟩ :=
    stands.turn_eq orderly queue deliver
  rw [unfolded]
  have answers := stands.answers orderly queue
  generalize outcome : Machine.step table configuration = done at answers ⊢
  generalize decided :
      frame.parser.decision frame.store
        ⟨table, configuration.top, .token token,
          table.actionAt configuration.top token.kind⟩ = answer at answers ⊢
  cases answers with
  | @goesOn event next decision tells runs leads =>
      have stepsNext := steps.step outcome
      have constants :=
        (Machine.Steps.one outcome).constants orderly
          stands.constants
      obtain ⟨after, performs, ends, standsNext, verdict⟩ :=
        perform_leads attended reaches stands (decides decision decided) runs
          leads constants (attended.meets _ next stepsNext)
      rw [bind_of_ok (demand_ok decision shown), ends]
      exact .goesOn performs tells standsNext verdict
  | @accepted state =>
      obtain ⟨after, performs, ends, situation, verdict⟩ :=
        perform_accepts attended reaches (decides (.accept state) decided)
      rw [bind_of_ok (demand_ok _ shown), ends]
      exact .accepted performs situation verdict
  | @refused state token expected top lookahead =>
      have plain :=
        (stands.prints prints).plain token
          (stands.meets token (.inr lookahead))
      have constant : state.isConstant = true := by
        rw [top]
        exact stands.constants.top
      rw [bind_of_error (demand_error _ shown),
        Store.settle_refusal plain constant]
      exact .refused prints top lookahead
  | @stuck defect proper =>
      rw [bind_of_error (demand_error _ shown), Store.settle_defect _ proper]
      exact .stuck prints

/-- A run that begins where the machine begins is always where the machine has come to. -/
theorem Reaches.stands
    (orderly : table.Orderly)
    (attended : Attended deliver table start first met)
    (initially : Stands met first start)
    (reaches : Reaches deliver (.table table) start frame) :
    ∃ events configuration,
      Machine.Steps table first events configuration ∧
        Stands met configuration frame := by
  induction reaches with
  | start =>
      exact ⟨[], first, .first, initially⟩
  | @turn value rest before after reaches lookahead turned inductionHypothesis =>
      obtain ⟨events, configuration, steps, stands⟩ := inductionHypothesis
      cases queue : configuration.pending with
      | nil =>
          rw [stands.pending_of_nothing queue] at lookahead
          cases lookahead
      | cons token later =>
          rw [stands.pending_of_lookahead queue] at lookahead
          cases lookahead
          have follows :=
            turn_follows orderly attended reaches steps stands queue
          rw [turned] at follows
          generalize outcome :
              Machine.step table configuration = done at follows
          cases follows with
          | goesOn performs tells standsNext verdict =>
              exact ⟨_, _, steps.step outcome, standsNext⟩

/-- A run ends as the machine does, where the machine does. -/
inductive Concludes :
    Machine.Ending → EStateM.Result Halt (Frame ω) Unit → Prop where
  | accepted
      {state : Value}
      {last : Machine.Configuration}
      {events : List Event}
      {after : Frame ω}
      (situation : after.situation = last.situation)
      (verdict : after.parser.accepted = true) :
      Concludes ⟨some (.accepted state), last, events⟩ (.ok () after)
  | refused
      {token : Token}
      {last : Machine.Configuration}
      {events : List Event}
      {expected : List Value}
      {after : Frame ω}
      (situation : after.situation = last.situation)
      (verdict : after.parser.accepted = false)
      (lookahead : last.pending.head? = some token) :
      Concludes ⟨some (.refused last.top token), last, events⟩
        (.error
          (.fault
            (.unexpectedToken last.top (after.store.resolve (.token token))
              expected))
          after)
  | stuck
      {defect : Defect}
      {last : Machine.Configuration}
      {events : List Event}
      {after : Frame ω}
      (situation : after.situation = last.situation)
      (verdict : after.parser.accepted = false) :
      Concludes ⟨some (.stuck defect), last, events⟩
        (.error
          (.fault (.malformedTable (after.store.resolveDefect defect)))
          after)
  | unfinished
      {last : Machine.Configuration}
      {events : List Event}
      {after : Frame ω}
      (situation : after.situation = last.situation)
      (verdict : after.parser.accepted = false) :
      Concludes ⟨none, last, events⟩ (.error .outOfSteps after)

/-- What a run concludes does not depend on what has been heard before. -/
theorem Concludes.after
    {ending : Machine.Ending}
    {result : EStateM.Result Halt (Frame ω) Unit}
    (concludes : Concludes ending result)
    (event : Event) :
    Concludes { ending with events := event :: ending.events } result := by
  cases concludes with
  | accepted situation verdict => exact .accepted situation verdict
  | refused situation verdict lookahead =>
      exact .refused situation verdict lookahead
  | stuck situation verdict => exact .stuck situation verdict
  | unfinished situation verdict => exact .unfinished situation verdict

/-- With an orderly table, a run of some turns is a run of the machine of as many steps. -/
theorem drive_concludes
    (orderly : table.Orderly)
    (attended : Attended deliver table start first met)
    (granted : Nat)
    {configuration : Machine.Configuration}
    {frame : Frame ω}
    (reaches : Reaches deliver (.table table) start frame)
    (steps : Machine.Steps table first events configuration)
    (stands : Stands met configuration frame)
    (unaccepted : frame.parser.accepted = false) :
    Concludes
      (Machine.run table granted configuration)
      (drive deliver (.table table) granted frame) := by
  induction granted generalizing configuration frame events with
  | zero =>
      exact .unfinished stands.situation unaccepted
  | succ granted inductionHypothesis =>
      unfold Machine.run
      cases queue : configuration.pending with
      | nil =>
          rw [Machine.step_of_nothing queue,
            drive_of_nothing (stands.pending_of_nothing queue),
            stands.topState_eq]
          simp only [Store.settle_defect frame.store
            (show (Defect.inputExhausted configuration.top).IsProper from
              stands.constants.top)]
          exact .stuck stands.situation unaccepted
      | cons token rest =>
          have pending := stands.pending_of_lookahead queue
          have follows :=
            turn_follows orderly attended reaches steps stands queue
          rw [drive_of_lookahead pending]
          generalize outcome :
              Machine.step table configuration = done at follows ⊢
          generalize turned :
              turn deliver (.table table) (.token token) frame = result
              at follows ⊢
          cases follows with
          | goesOn performs tells standsNext verdict =>
              exact
                (inductionHypothesis (reaches.turn pending turned)
                  (steps.step outcome) standsNext
                  (verdict.trans unaccepted)).after _
          | accepted performs situation verdict =>
              exact .accepted (situation.trans stands.situation) verdict
          | refused prints top lookahead =>
              subst top
              exact .refused (stands.prints prints).situation
                (prints.spares.accepted.trans unaccepted) lookahead
          | stuck prints =>
              exact .stuck (stands.prints prints).situation
                (prints.spares.accepted.trans unaccepted)

/-- An observer takes down what the machine says that it hears. -/
theorem drive_records
    {β : Type}
    {observer : String}
    {note : Event → List β}
    {record : ω → List β}
    (orderly : table.Orderly)
    (attended : Attended deliver table start first met)
    (records : Records deliver (.table table) start observer note record)
    (granted : Nat)
    {configuration : Machine.Configuration}
    {frame : Frame ω}
    (reaches : Reaches deliver (.table table) start frame)
    (steps : Machine.Steps table first events configuration)
    (stands : Stands met configuration frame) :
    record (frameAfter (drive deliver (.table table) granted) frame).world =
      record frame.world ++
        (Machine.run table granted configuration).events.flatMap note := by
  induction granted generalizing configuration frame events with
  | zero =>
      have ends :
          drive deliver (.table table) 0 frame = .error .outOfSteps frame :=
        rfl
      simp [frameAfter_of_error ends, Machine.run]
  | succ granted inductionHypothesis =>
      unfold Machine.run
      cases queue : configuration.pending with
      | nil =>
          have exhausts := stands.pending_of_nothing queue
          simp [frameAfter, drive_of_nothing exhausts, stands.topState_eq,
            Machine.step_of_nothing queue, Machine.Verdict.events]
      | cons token rest =>
          have pending := stands.pending_of_lookahead queue
          have follows :=
            turn_follows orderly attended reaches steps stands queue
          simp only [frameAfter, drive_of_lookahead pending]
          generalize outcome :
              Machine.step table configuration = done at follows ⊢
          generalize turned :
              turn deliver (.table table) (.token token) frame = result
              at follows ⊢
          cases follows with
          | goesOn performs tells standsNext verdict =>
              have later :=
                inductionHypothesis (reaches.turn pending turned)
                  (steps.step outcome) standsNext
              rw [records.performs reaches performs, tells] at later
              simp only [List.flatMap_cons, ← List.append_assoc]
              exact later
          | accepted performs situation verdict =>
              have noted := records.performs reaches performs
              simpa [Machine.Verdict.events, Decision.event] using noted
          | refused prints top lookahead =>
              simp [Machine.Verdict.events, prints.world]
          | stuck prints =>
              simp [Machine.Verdict.events, prints.world]

end Runs

end Run

end ShiftReduce
