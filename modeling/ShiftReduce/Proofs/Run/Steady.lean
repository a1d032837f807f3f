import ShiftReduce.Proofs.Machine.Refinement
import ShiftReduce.Proofs.Run.Replay
import ShiftReduce.Proofs.Run.Twins

namespace ShiftReduce

/-!
# Steady runs

A run is steady if nothing disturbs its parse or keeps it from going on, the table goes on
to look as it does, and tokens stay plain (`Run.Steady`).  A steady run carries out what it
decides on, and a verdict that is a fault is what it ends with.
-/

/-- Carrying out an acceptance marks the parser as having accepted, and nothing else does. -/
theorem Parser.commit_accepted
    {table : Table}
    {store : Store}
    {situation : Situation}
    {chosen : Decision}
    {parser after : Parser}
    (sanctioned : situation.Sanctions table store chosen)
    (same : parser.situation = situation)
    (committed : commit chosen parser = .ok () after) :
    after.accepted =
      match chosen.progress with
      | .running => parser.accepted
      | .finished => true := by
  subst same
  cases sanctioned with
  | @shift state token next kind top lookahead named entry =>
      obtain ⟨rest, queue⟩ := List.head?_eq_some_iff.mp lookahead
      cases token with
      | token carried =>
          rw [commit_shift queue] at committed
          cases committed
          rfl
      | _ => cases committed
  | @reduce state token exposed next kind production top lookahead named entry
      shallow exposes goto present =>
      have statesEnough : production.length ≤ parser.states.length :=
        Nat.le_of_lt (List.getElem?_eq_some_iff.mp exposes).1
      rw [commit_reduce statesEnough (Nat.le_of_lt shallow)] at committed
      cases headed : production.head with
      | nonterminal head =>
          rw [headed] at committed
          cases committed
          rfl
      | _ =>
          rw [headed] at committed
          cases committed
  | accept top lookahead named entry =>
      cases committed
      rfl

namespace Run

variable
  {ω : Type}
  {deliver : Deliver ω}
  {table : Table}
  {start frame before shown after : Frame ω}
  {decision : Decision}
  {input : List Token}

/-- What an activity halts with, unless it returns. -/
def halt?
    {α : Type}
    (run : Run ω α)
    (frame : Frame ω) :
    Option Halt :=
  match run frame with
  | .ok .. => none
  | .error halt _ => some halt

theorem halt?_of_ok
    {α : Type}
    {run : Run ω α}
    {result : α}
    (ends : run frame = .ok result after) :
    halt? run frame = none := by
  simp [halt?, ends]

theorem halt?_of_error
    {α : Type}
    {run : Run ω α}
    {halt : Halt}
    (ends : run frame = .error halt after) :
    halt? run frame = some halt := by
  simp [halt?, ends]

/-- Nothing that a run shows of itself keeps it from going on. -/
structure ShowsFreely
    (deliver : Deliver ω)
    (table : Table)
    (start : Frame ω) :
    Prop where
  selections :
    ∀ before token rest selection,
      Reaches deliver (.table table) start before →
        before.parser.pending = token :: rest →
        before.parser.select before.store (.table table) token =
            .ok selection →
          ∃ shown, printSelection selection before = .ok () shown
  outcomes :
    ∀ before decision shown told parser,
      Reaches deliver (.table table) start before →
        Decides (.table table) before decision shown →
        notify deliver decision.event shown = .ok () told →
        Parser.commit decision told.parser = .ok () parser →
          ∃ after, printStack { told with parser := parser } = .ok () after

/-- A parser that comes to a decision announces it. -/
theorem ShowsFreely.decides
    (shows : ShowsFreely deliver table start)
    (reaches : Reaches deliver (.table table) start frame)
    (chosen : frame.parser.verdict frame.store table = .ok decision) :
    ∃ shown, Decides (.table table) frame decision shown := by
  unfold Parser.verdict Parser.nextStep at chosen
  cases queue : frame.parser.pending with
  | nil =>
      cases top : frame.parser.topState <;>
        simp [queue, top, bind, Except.bind] at chosen
  | cons token rest =>
      simp only [queue, bind, Except.bind] at chosen
      cases selected :
          frame.parser.select frame.store (.table table) token with
      | error cause => simp [selected] at chosen
      | ok selection =>
          simp only [selected] at chosen
          cases decided : frame.parser.decision frame.store selection with
          | error cause => simp [decided] at chosen
          | ok found =>
              simp only [decided, Store.report_ok, Except.ok.injEq] at chosen
              subst chosen
              obtain ⟨shown, printed⟩ :=
                shows.selections frame token rest selection reaches queue
                  selected
              exact ⟨shown, .intro queue selected printed decided⟩

/-- A parser whose verdict is a fault comes to no decision. -/
theorem undecided_of_verdict
    {cause : Fault}
    (refused : frame.parser.verdict frame.store table = .error cause) :
    announcement? (.table table) frame = none := by
  cases announced : announcement? (.table table) frame with
  | none => rfl
  | some announcement =>
      have decides := announcement?_eq_some_iff.mp announced
      cases decides with
      | intro lookahead selected printed decided =>
          simp [Parser.verdict, Parser.nextStep, lookahead, selected, decided,
            bind, Except.bind] at refused

/-- A parser whose verdict is a fault ends with it. -/
theorem ShowsFreely.halts
    {cause : Fault}
    (shows : ShowsFreely deliver table start)
    (reaches : Reaches deliver (.table table) start frame)
    (refused : frame.parser.verdict frame.store table = .error cause)
    (granted : Nat) :
    ∃ after,
      drive deliver (.table table) (granted + 1) frame =
          .error (.fault cause) after ∧
        frame.PrintsTo after := by
  unfold Parser.verdict Parser.nextStep at refused
  cases queue : frame.parser.pending with
  | nil =>
      rw [drive_of_nothing queue]
      cases top : frame.parser.topState with
      | error fault =>
          simp only [queue, top, bind, Except.bind, Store.report_error,
            Except.error.injEq] at refused
          subst refused
          exact ⟨frame, rfl, .refl frame⟩
      | ok state =>
          simp only [queue, top, bind, Except.bind, Store.report_error,
            Except.error.injEq] at refused
          subst refused
          exact ⟨frame, rfl, .refl frame⟩
  | cons token rest =>
      simp only [queue, bind, Except.bind] at refused
      have prints := consult_printsTo (.table table) token frame
      obtain ⟨after, consulted⟩ :
          ∃ after,
            consult (.table table) token frame =
              .error (.fault cause) after := by
        rw [consult_eq]
        cases selected :
            frame.parser.select frame.store (.table table) token with
        | error fault =>
            simp only [selected, Store.report_error, Except.error.injEq]
              at refused
            rw [bind_of_error (demand_error fault frame), refused]
            exact ⟨frame, rfl⟩
        | ok selection =>
            simp only [selected] at refused
            obtain ⟨shown, printed⟩ :=
              shows.selections frame token rest selection reaches queue
                selected
            have sameStore : shown.store = frame.store := by
              have prints := printSelection_printsTo selection frame
              rw [frameAfter_of_ok printed] at prints
              exact prints.store
            rw [bind_of_ok (demand_ok selection frame), bind_of_ok printed]
            cases decided : frame.parser.decision frame.store selection with
            | ok found => simp [decided] at refused
            | error fault =>
                simp only [decided, Store.report_error, Except.error.injEq]
                  at refused
                rw [demand_error, sameStore, refused]
                exact ⟨shown, rfl⟩
      rw [frameAfter_of_error consulted] at prints
      rw [drive_of_lookahead queue, turn_eq_consult, bind_of_error consulted]
      exact ⟨after, rfl, prints⟩

/--
A run in which nothing disturbs the parse or keeps it from going on, the table looks as
it did, and tokens stay plain.
-/
structure Steady
    (deliver : Deliver ω)
    (table : Table)
    (start : Frame ω)
    (input : List Token) :
    Prop where
  undisturbed : Undisturbed deliver (.table table) start
  ends : NotificationsEnd deliver (.table table) start
  shows : ShowsFreely deliver table start
  look :
    ∀ frame,
      Reaches deliver (.table table) start frame →
        table.SameLook start.store frame.store
  plain :
    ∀ frame,
      Reaches deliver (.table table) start frame →
        ∀ token ∈ input, frame.store.IsPlain token.value

/-- No callback disturbs the parse, cuts it short, or changes what the table looks like. -/
structure Unobtrusive
    (deliver : Deliver ω)
    (table : Table)
    (start : Frame ω) :
    Prop where
  undisturbed : Undisturbed deliver (.table table) start
  ends : NotificationsEnd deliver (.table table) start
  look :
    ∀ name event moment,
      Callback deliver (.table table) start name event moment →
        table.SameLook moment.store
          (frameAfter (deliver name event) moment).store

theorem Confined.unobtrusive
    (confined : Confined deliver (.table table) start)
    (ends : NotificationsEnd deliver (.table table) start) :
    Unobtrusive deliver table start where
  undisturbed := confined.undisturbed
  ends := ends
  look := by
    intro name event moment callback
    rw [confined.store_eq callback]
    exact .refl table moment.store

/-- A table that no callback changes looks the same throughout a run. -/
theorem Unobtrusive.passes_look
    (unobtrusive : Unobtrusive deliver table start)
    (passes : Passes deliver (.table table) start frame) :
    table.SameLook start.store frame.store := by
  refine passes.relates
    (fun earlier later => table.SameLook earlier.store later.store)
    (fun frame => .refl table frame.store)
    (fun before after => before.trans after) ?_
    (fun {told _ _} _ => .refl table told.store) unobtrusive.look
  intro before after prints
  rw [prints.store]
  exact .refl table before.store

/-- Payloads that no callback spoils are plain throughout a run. -/
theorem PayloadsStay.passes_plain
    (stay : PayloadsStay deliver table start input)
    (plain : ∀ token ∈ input, start.store.IsPlain token.value)
    (passes : Passes deliver (.table table) start frame) :
    ∀ token ∈ input, frame.store.IsPlain token.value := by
  have kept :
      ∀ token ∈ input,
        start.store.IsPlain token.value → frame.store.IsPlain token.value := by
    refine passes.relates
      (fun earlier later =>
        ∀ token ∈ input,
          earlier.store.IsPlain token.value → later.store.IsPlain token.value)
      (fun _ _ _ plain => plain)
      (fun before after token member plain =>
        after token member (before token member plain))
      ?_ (fun _ _ _ plain => plain) stay
    intro before after prints token member plain
    rw [prints.store]
    exact plain
  exact fun token member => kept token member (plain token member)

/-- A run that nothing interferes with is steady. -/
theorem Unobtrusive.steady
    (unobtrusive : Unobtrusive deliver table start)
    (stay : PayloadsStay deliver table start input)
    (plain : ∀ token ∈ input, start.store.IsPlain token.value)
    (shows : ShowsFreely deliver table start) :
    Steady deliver table start input where
  undisturbed := unobtrusive.undisturbed
  ends := unobtrusive.ends
  shows := shows
  look _ reaches := unobtrusive.passes_look (.reached reaches)
  plain _ reaches := stay.passes_plain plain (.reached reaches)

/--
A parser is about to read tokens that carry plain data, with observers that do not
interfere with the parse or with what the table looks like.
-/
structure Reads
    (deliver : Deliver ω)
    (table : Table)
    (input : List Token)
    (frame : Frame ω) :
    Prop where
  loaded : frame.parser.Loaded table (input.map .token)
  unused : frame.parser.ran = false
  unaccepted : frame.parser.accepted = false
  plain : ∀ token ∈ input, frame.store.IsPlain token.value
  unobtrusive : Unobtrusive deliver table frame.begun

theorem Reads.begins
    (reads : Reads deliver table input frame)
    (granted : Nat) :
    Run.start deliver granted frame =
      drive deliver (.table table) granted frame.begun := by
  rw [start_begins reads.loaded.isLoaded reads.unused, reads.loaded.held]

/-- An acceptance marks the parser as having accepted, and nothing else does. -/
theorem accepted_of_performs
    (undisturbed : Undisturbed deliver (.table table) start)
    (reaches : Reaches deliver (.table table) start before)
    (performs : Performs deliver (.table table) before decision after) :
    after.parser.accepted =
      match decision.progress with
      | .running => before.parser.accepted
      | .finished => true := by
  cases performs with
  | @intro shown told _ parser decides notified committed prints =>
      have spares := undisturbed.notify_spares reaches decides
      rw [frameAfter_of_ok notified] at spares
      rw [prints.parser, ← spares.accepted,
        Parser.commit_accepted decides.sanctioned spares.situation committed]

/-- A run comes through states of its table and tokens of its input only. -/
theorem Undisturbed.reaches_within
    (undisturbed : Undisturbed deliver (.table table) start)
    (initially : start.situation.Within table input)
    (reaches : Reaches deliver (.table table) start frame) :
    frame.situation.Within table input := by
  refine reaches.holds (fun frame => frame.situation.Within table input) ?_
    initially
  intro before decision after reaches within performs
  obtain ⟨sanctioned, moves⟩ := undisturbed.moves reaches performs
  exact moves.within sanctioned within

/-- In a steady run, an action that is decided on is carried out to its end. -/
theorem Steady.performs
    (steady : Steady deliver table start input)
    (proper : table.HasProperHeads)
    (reaches : Reaches deliver (.table table) start before)
    (within : before.situation.Within table input)
    (decides : Decides (.table table) before decision shown) :
    ∃ after,
      perform deliver decision shown = .ok decision.progress after ∧
        Performs deliver (.table table) before decision after ∧
        after.situation.Within table input := by
  obtain ⟨told, notified⟩ :=
    steady.ends before decision shown reaches decides
  cases committed : Parser.commit decision told.parser with
  | error cause parser =>
      exact (decides.sanctioned.unbroken proper within.holdsTokens
        (steady.undisturbed.remains reaches decides notified committed)).elim
  | ok result parser =>
      obtain ⟨after, prints, performed⟩ :=
        perform_of_shown notified committed
          (steady.shows.outcomes before decision shown told parser reaches
            decides notified committed)
      have performs : Performs deliver (.table table) before decision after :=
        .intro decides notified committed prints
      obtain ⟨sanctioned, moves⟩ := steady.undisturbed.moves reaches performs
      exact ⟨after, performed, performs, moves.within sanctioned within⟩

/-- A run adds nothing to the queue. -/
theorem Undisturbed.pending_le
    (undisturbed : Undisturbed deliver (.table table) start)
    (reaches : Reaches deliver (.table table) start frame)
    (granted : Nat) :
    (frameAfter (drive deliver (.table table) granted)
        frame).parser.pending.length ≤ frame.parser.pending.length := by
  let inside : Frame ω → Prop := fun after =>
    after.situation.pending.length ≤ frame.parser.pending.length
  refine drive_exits inside inside ?_ ?_ ?_ ?_ granted reaches
    (Nat.le_refl _)
  · intro before after holds prints
    change after.situation.pending.length ≤ _
    rw [prints.situation]
    exact holds
  · intro before decision after reaches holds performs
    obtain ⟨_, moves⟩ := undisturbed.moves reaches performs
    exact Nat.le_trans moves.pending_le holds
  · intro before decision shown halt after reaches holds decides interrupted
    have spares := undisturbed.notify_spares reaches decides
    rw [frameAfter_of_error interrupted] at spares
    change after.situation.pending.length ≤ _
    rw [spares.situation]
    exact holds
  · intro before decision shown told cause parser reaches holds decides
      notified broken
    have remains := undisturbed.remains reaches decides notified broken
    change parser.situation.pending.length ≤ _
    rw [remains.pending_eq]
    exact holds

end Run

end ShiftReduce
