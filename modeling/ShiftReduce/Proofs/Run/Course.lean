import ShiftReduce.Proofs.Run.Turn

namespace ShiftReduce

/-!
# The course of a run

A run comes through frames between its actions (`Run.Reaches`), and calls
observers back in frames of their own (`Run.Callback`).  What observers are
assumed to do or not to do is always said of the callbacks of the run at hand,
so that nothing is asked of an observer in circumstances that never arise.

`Reaches.holds`, `Callback.holds` and `drive_exits` carry an invariant from one
action to all moments of a run and to every way out of it.
-/

namespace Parser

/-- A parser has been loaded with a table and tokens, and nothing has come of it yet. -/
structure Loaded
    (parser : Parser)
    (table : Table)
    (tokens : List Value) :
    Prop where
  held : parser.table = .table table
  states : parser.states = [table.initial]
  symbols : parser.symbols = [bottomMarker]
  pending : parser.pending = tokens

theorem Loaded.isLoaded
    {parser : Parser}
    {table : Table}
    {tokens : List Value}
    (loaded : parser.Loaded table tokens) :
    parser.isLoaded = true := by
  simp [Parser.isLoaded, loaded.held, loaded.symbols, Value.isNone]

/-- Loading a table and tokens comes to the same loaded parser in either order. -/
theorem loaded_of_loaders
    {store : Store}
    {table : Table}
    {tokens : Value}
    {members : List Value}
    (holds : store.members tokens = .ok members)
    (parser : Parser) :
    ∃ after,
      (do loadTable (.table table); loadTokens store tokens : Operation Unit)
          parser = .ok () after ∧
        (do loadTokens store tokens; loadTable (.table table) : Operation Unit)
          parser = .ok () after ∧
        after.Loaded table members := by
  refine
    ⟨{ parser with
        table := .table table
        states := [table.initial]
        symbols := [bottomMarker]
        pending := members }, ?_, ?_, rfl, rfl, rfl, rfl⟩
  · simp only [loadTokens, holds]
    rfl
  · simp only [loadTokens, holds]
    rfl

end Parser

namespace Frame

variable {ω : Type}

/-- The frame of a run that has passed its guards. -/
def begun
    (frame : Frame ω) :
    Frame ω :=
  { frame with parser := { frame.parser with ran := true } }

/-- A verbose parser with a table, tokens and observers, about to run with an empty store. -/
def fresh
    (table : Table)
    (tokens : List Value)
    (observers : List String)
    (world : ω) :
    Frame ω where
  parser :=
    { Parser.create .none true with
      registry := ⟨.none, observers.map .observer⟩
      table := .table table
      states := [table.initial]
      symbols := [Parser.bottomMarker]
      pending := tokens }
  store := .empty
  trace := []
  world := world

/-- The frame with a parser that prints no trace. -/
def quiet
    (frame : Frame ω) :
    Frame ω :=
  { frame with parser := { frame.parser with verbose := false } }

theorem fresh_loaded
    (table : Table)
    (tokens : List Value)
    (observers : List String)
    (world : ω) :
    (fresh table tokens observers world).parser.Loaded table tokens :=
  ⟨rfl, rfl, rfl, rfl⟩

/--
One frame becomes another without any effect on the parse that is going on: the
stacks, the queue and the verdict stay.  Observers may have been registered,
the parser made verbose or not, and the store and the world changed.
-/
structure Spares
    (before after : Frame ω) :
    Prop where
  situation : after.situation = before.situation
  accepted : after.parser.accepted = before.parser.accepted

theorem Spares.refl
    (frame : Frame ω) :
    frame.Spares frame :=
  ⟨rfl, rfl⟩

theorem Spares.trans
    {first second third : Frame ω}
    (before : first.Spares second)
    (after : second.Spares third) :
    first.Spares third :=
  ⟨after.situation.trans before.situation,
    after.accepted.trans before.accepted⟩

theorem PrintsTo.spares
    {before after : Frame ω}
    (prints : before.PrintsTo after) :
    before.Spares after :=
  ⟨prints.situation, congrArg Parser.accepted prints.parser⟩

end Frame

namespace Run

variable {ω : Type}

/-- Frames that a run from a start comes through between its actions. -/
inductive Reaches
    (deliver : Deliver ω)
    (table : Value)
    (start : Frame ω) :
    Frame ω → Prop where
  | start :
      Reaches deliver table start start
  | turn
      {token : Value}
      {rest : List Value}
      {before after : Frame ω}
      (reaches : Reaches deliver table start before)
      (lookahead : before.parser.pending = token :: rest)
      (turned : turn deliver table token before = .ok .running after) :
      Reaches deliver table start after

/-- Telling listeners of an event comes to an observer in a certain frame. -/
inductive Tells
    (deliver : Deliver ω)
    (event : Event) :
    List Listener → Frame ω → String → Frame ω → Prop where
  | now
      {name : String}
      {rest : List Listener}
      {frame : Frame ω} :
      Tells deliver event (.observer name :: rest) frame name frame
  | later
      {listener : Listener}
      {rest : List Listener}
      {frame next moment : Frame ω}
      {name : String}
      (told : listener.tell deliver event frame = .ok () next)
      (tells : Tells deliver event rest next name moment) :
      Tells deliver event (listener :: rest) frame name moment

/-- A run from a start calls an observer back with an event in a certain frame. -/
inductive Callback
    (deliver : Deliver ω)
    (table : Value)
    (start : Frame ω) :
    String → Event → Frame ω → Prop where
  | intro
      {before shown moment : Frame ω}
      {decision : Decision}
      {name : String}
      (reaches : Reaches deliver table start before)
      (decides : Decides table before decision shown)
      (tells :
        Tells deliver decision.event shown.parser.registry.listeners shown
          name moment) :
      Callback deliver table start name decision.event moment

/-- No callback of a run has an effect on the parse, whether it fails or not. -/
def Undisturbed
    (deliver : Deliver ω)
    (table : Value)
    (start : Frame ω) :
    Prop :=
  ∀ name event moment,
    Callback deliver table start name event moment →
      moment.Spares (frameAfter (deliver name event) moment)

/-- Every notification of a run comes to its end. -/
def NotificationsEnd
    (deliver : Deliver ω)
    (table : Value)
    (start : Frame ω) :
    Prop :=
  ∀ before decision shown,
    Reaches deliver table start before →
      Decides table before decision shown →
        ∃ told, notify deliver decision.event shown = .ok () told

/-- Frames that a run passes: between its actions, and with all told of one of them. -/
inductive Passes
    (deliver : Deliver ω)
    (table : Value)
    (start : Frame ω) :
    Frame ω → Prop where
  | reached
      {frame : Frame ω}
      (reaches : Reaches deliver table start frame) :
      Passes deliver table start frame
  | told
      {before shown told : Frame ω}
      {decision : Decision}
      (reaches : Reaches deliver table start before)
      (decides : Decides table before decision shown)
      (notified : notify deliver decision.event shown = .ok () told) :
      Passes deliver table start told

/-- What each callback does to frames, telling all listeners does. -/
theorem tellAll_relates
    (relation : Frame ω → Frame ω → Prop)
    (refl : ∀ frame, relation frame frame)
    (trans :
      ∀ {earlier middle later},
        relation earlier middle → relation middle later →
          relation earlier later)
    {deliver : Deliver ω}
    {event : Event}
    {listeners : List Listener}
    {frame : Frame ω}
    (each :
      ∀ name moment,
        Tells deliver event listeners frame name moment →
          relation moment (frameAfter (deliver name event) moment)) :
    relation frame (frameAfter (Listener.tellAll deliver event listeners) frame) := by
  induction listeners generalizing frame with
  | nil =>
      exact refl frame
  | cons listener rest inductionHypothesis =>
      change
        relation frame
          (frameAfter
            (listener.tell deliver event >>= fun _ =>
              Listener.tellAll deliver event rest) frame)
      apply frameAfter_bind relation trans
      · cases listener with
        | observer name =>
            exact each name frame .now
        | stranger value =>
            exact refl frame
      · intro _ after told
        exact inductionHypothesis fun name moment tells =>
          each name moment (.later told tells)

/-- What each callback does to frames has been done before an observer is told. -/
theorem Tells.relates
    (relation : Frame ω → Frame ω → Prop)
    (refl : ∀ frame, relation frame frame)
    (trans :
      ∀ {earlier middle later},
        relation earlier middle → relation middle later →
          relation earlier later)
    {deliver : Deliver ω}
    {event : Event}
    {listeners : List Listener}
    {frame moment : Frame ω}
    {name : String}
    (each :
      ∀ name moment,
        Tells deliver event listeners frame name moment →
          relation moment (frameAfter (deliver name event) moment))
    (tells : Tells deliver event listeners frame name moment) :
    relation frame moment := by
  induction tells with
  | now =>
      exact refl _
  | @later listener rest frame next moment name told tells inductionHypothesis =>
      have first : relation frame next := by
        cases listener with
        | observer name =>
            change deliver name event frame = .ok () next at told
            have related := each name frame .now
            rwa [frameAfter_of_ok told] at related
        | stranger value =>
            cases told
      exact trans first
        (inductionHypothesis fun name moment tells =>
          each name moment (.later told tells))

section Relations

variable
  {deliver : Deliver ω}
  {table : Value}
  {start before shown : Frame ω}
  {decision : Decision}
  (relation : Frame ω → Frame ω → Prop)

/-- What the callbacks of a run do to frames, each of its notifications does. -/
theorem notify_relates
    (refl : ∀ frame, relation frame frame)
    (trans :
      ∀ {earlier middle later},
        relation earlier middle → relation middle later →
          relation earlier later)
    (each :
      ∀ name event moment,
        Callback deliver table start name event moment →
          relation moment (frameAfter (deliver name event) moment))
    (reaches : Reaches deliver table start before)
    (decides : Decides table before decision shown) :
    relation shown (frameAfter (notify deliver decision.event) shown) :=
  tellAll_relates relation refl trans fun name moment tells =>
    each name decision.event moment (.intro reaches decides tells)

/-- What the callbacks of a run do to frames has been done when an observer is told. -/
theorem tells_relates
    (refl : ∀ frame, relation frame frame)
    (trans :
      ∀ {earlier middle later},
        relation earlier middle → relation middle later →
          relation earlier later)
    (each :
      ∀ name event moment,
        Callback deliver table start name event moment →
          relation moment (frameAfter (deliver name event) moment))
    (reaches : Reaches deliver table start before)
    (decides : Decides table before decision shown)
    {name : String}
    {moment : Frame ω}
    (tells :
      Tells deliver decision.event shown.parser.registry.listeners shown
        name moment) :
    relation shown moment :=
  tells.relates relation refl trans fun name moment tells =>
    each name decision.event moment (.intro reaches decides tells)

end Relations

namespace Undisturbed

variable
  {deliver : Deliver ω}
  {table : Table}
  {start before shown : Frame ω}
  {decision : Decision}

/-- Telling the observers of a decision leaves the parse where it was decided. -/
theorem notify_spares
    (undisturbed : Undisturbed deliver (.table table) start)
    (reaches : Reaches deliver (.table table) start before)
    (decides : Decides (.table table) before decision shown) :
    before.Spares (frameAfter (notify deliver decision.event) shown) :=
  decides.printsTo.spares.trans
    (notify_relates Frame.Spares .refl .trans undisturbed reaches decides)

/-- An observer finds the parse where its action was decided. -/
theorem tells_spares
    (undisturbed : Undisturbed deliver (.table table) start)
    (reaches : Reaches deliver (.table table) start before)
    (decides : Decides (.table table) before decision shown)
    {name : String}
    {moment : Frame ω}
    (tells :
      Tells deliver decision.event shown.parser.registry.listeners shown
        name moment) :
    before.Spares moment :=
  decides.printsTo.spares.trans
    (tells_relates Frame.Spares .refl .trans undisturbed reaches decides tells)

/-- An action is carried out on the situation that it was decided in. -/
theorem moves
    (undisturbed : Undisturbed deliver (.table table) start)
    {after : Frame ω}
    (reaches : Reaches deliver (.table table) start before)
    (performs : Performs deliver (.table table) before decision after) :
    before.situation.Sanctions table before.store decision ∧
      Situation.Moves decision before.situation after.situation := by
  cases performs with
  | @intro shown told _ parser decides notified committed prints =>
      have spares := undisturbed.notify_spares reaches decides
      rw [frameAfter_of_ok notified] at spares
      have moved :
          Situation.Moves decision before.situation parser.situation :=
        Parser.commit_moves decides.sanctioned spares.situation committed
      rw [prints.situation]
      exact ⟨decides.sanctioned, moved⟩

/-- An action breaks off in the situation that it was decided in. -/
theorem remains
    (undisturbed : Undisturbed deliver (.table table) start)
    {told : Frame ω}
    {cause : Fault}
    {parser : Parser}
    (reaches : Reaches deliver (.table table) start before)
    (decides : Decides (.table table) before decision shown)
    (notified : notify deliver decision.event shown = .ok () told)
    (broken : Parser.commit decision told.parser = .error cause parser) :
    before.situation.Remains decision parser.situation := by
  have spares := undisturbed.notify_spares reaches decides
  rw [frameAfter_of_ok notified] at spares
  exact Parser.commit_remains decides.sanctioned spares.situation broken

end Undisturbed

section Invariants

variable
  {deliver : Deliver ω}
  {table : Value}
  {start : Frame ω}
  (inside : Frame ω → Prop)

/-- What every action keeps holds between any two actions of a run. -/
theorem Reaches.holds
    (step :
      ∀ {before decision after},
        Reaches deliver table start before →
          inside before →
          Performs deliver table before decision after →
            inside after)
    (initially : inside start)
    {frame : Frame ω}
    (reaches : Reaches deliver table start frame) :
    inside frame := by
  induction reaches with
  | start =>
      exact initially
  | @turn token rest before after reaches lookahead turned inductionHypothesis =>
      have ends := turn_turned lookahead deliver table
      rw [turned] at ends
      cases ends with
      | performed performs _ =>
          exact step reaches inductionHypothesis performs

section Steps

variable
  (relation : Frame ω → Frame ω → Prop)
  (refl : ∀ frame, relation frame frame)
  (trans :
    ∀ {earlier middle later},
      relation earlier middle → relation middle later →
        relation earlier later)
  (prints : ∀ {before after}, before.PrintsTo after → relation before after)
  (commits :
    ∀ {told decision parser},
      Parser.commit decision told.parser = .ok () parser →
        relation told { told with parser := parser })
  (each :
    ∀ name event moment,
      Callback deliver table start name event moment →
        relation moment (frameAfter (deliver name event) moment))

include refl trans prints commits each

/-- A relation that printing, callbacks and commits respect leads from action to action. -/
theorem Performs.relates
    {before after : Frame ω}
    {decision : Decision}
    (reaches : Reaches deliver table start before)
    (performs : Performs deliver table before decision after) :
    relation before after := by
  cases performs with
  | @intro shown told _ parser decides notified committed printed =>
      have told := notify_relates relation refl trans each reaches decides
      rw [frameAfter_of_ok notified] at told
      exact trans (prints decides.printsTo)
        (trans told (trans (commits committed) (prints printed)))

/-- Such a relation leads from the start of a run to every frame between its actions. -/
theorem Reaches.relates
    {frame : Frame ω}
    (reaches : Reaches deliver table start frame) :
    relation start frame := by
  refine reaches.holds (relation start) ?_ (refl start)
  intro before decision after reaches related performs
  exact trans related
    (performs.relates relation refl trans prints commits each reaches)

/-- Such a relation leads from the start of a run to every frame that it passes. -/
theorem Passes.relates
    {frame : Frame ω}
    (passes : Passes deliver table start frame) :
    relation start frame := by
  cases passes with
  | reached reaches =>
      exact reaches.relates relation refl trans prints commits each
  | told reaches decides notified =>
      have told := notify_relates relation refl trans each reaches decides
      rw [frameAfter_of_ok notified] at told
      exact trans (reaches.relates relation refl trans prints commits each)
        (trans (prints decides.printsTo) told)

end Steps

/--
What every action keeps, and what an observer then hears, holds of every
callback of a run.
-/
theorem Callback.holds
    (hearing : Frame ω → Prop)
    (step :
      ∀ {before decision after},
        Reaches deliver table start before →
          inside before →
          Performs deliver table before decision after →
            inside after)
    (hear :
      ∀ {before decision shown name moment},
        Reaches deliver table start before →
          inside before →
          Decides table before decision shown →
          Tells deliver decision.event shown.parser.registry.listeners shown
            name moment →
            hearing moment)
    (initially : inside start)
    {name : String}
    {event : Event}
    {moment : Frame ω}
    (callback : Callback deliver table start name event moment) :
    hearing moment := by
  cases callback with
  | intro reaches decides tells =>
      exact hear reaches (reaches.holds inside step initially) decides tells

/--
What every action keeps, and what is left of it on every other way out of a
turn, holds at the end of a run.
-/
theorem drive_exits
    (outside : Frame ω → Prop)
    (leave :
      ∀ {before after}, inside before → before.PrintsTo after → outside after)
    (step :
      ∀ {before decision after},
        Reaches deliver table start before →
          inside before →
          Performs deliver table before decision after →
            inside after)
    (interrupt :
      ∀ {before decision shown halt after},
        Reaches deliver table start before →
          inside before →
          Decides table before decision shown →
          notify deliver decision.event shown = .error halt after →
            outside after)
    (breakOff :
      ∀ {before decision shown told cause parser},
        Reaches deliver table start before →
          inside before →
          Decides table before decision shown →
          notify deliver decision.event shown = .ok () told →
          Parser.commit decision told.parser = .error cause parser →
            outside { told with parser := parser })
    (granted : Nat)
    {frame : Frame ω}
    (reaches : Reaches deliver table start frame)
    (holds : inside frame) :
    outside (frameAfter (drive deliver table granted) frame) := by
  induction granted generalizing frame with
  | zero =>
      exact leave holds (.refl frame)
  | succ granted inductionHypothesis =>
      cases queue : frame.parser.pending with
      | nil =>
          have unchanged :
              frameAfter (drive deliver table (granted + 1)) frame = frame := by
            simp only [frameAfter, drive_of_nothing queue]
            cases frame.parser.topState <;> rfl
          rw [unchanged]
          exact leave holds (.refl frame)
      | cons token rest =>
          have unfolded := drive_of_lookahead queue deliver table granted
          have ends := turn_turned queue deliver table
          cases turned : turn deliver table token frame with
          | error halt after =>
              rw [turned] at ends unfolded
              rw [frameAfter_of_error unfolded]
              cases ends with
              | unshown performs =>
                  exact leave (step reaches holds performs) (.refl after)
              | undecided prints =>
                  exact leave holds prints
              | interrupted decides interrupted =>
                  exact interrupt reaches holds decides interrupted
              | broken decides notified broken =>
                  exact breakOff reaches holds decides notified broken
          | ok progress after =>
              rw [turned] at ends unfolded
              have kept : inside after := by
                cases ends with
                | performed performs _ =>
                    exact step reaches holds performs
              cases progress with
              | finished =>
                  rw [frameAfter_of_ok unfolded]
                  exact leave kept (.refl after)
              | running =>
                  simp only [frameAfter, unfolded]
                  exact inductionHypothesis
                    (.turn reaches queue turned) kept

/-- A run that returns has come to an acceptance, and carried it out. -/
theorem drive_accepts
    {granted : Nat}
    {frame after : Frame ω}
    (reaches : Reaches deliver table start frame)
    (ended : drive deliver table granted frame = .ok () after) :
    ∃ before state,
      Reaches deliver table start before ∧
        Performs deliver table before (.accept state) after := by
  induction granted generalizing frame with
  | zero =>
      cases ended
  | succ granted inductionHypothesis =>
      cases queue : frame.parser.pending with
      | nil =>
          rw [drive_of_nothing queue] at ended
          cases top : frame.parser.topState <;> simp [top] at ended
      | cons token rest =>
          rw [drive_of_lookahead queue] at ended
          have ends := turn_turned queue deliver table
          cases turned : turn deliver table token frame with
          | error halt stopped =>
              rw [turned] at ended
              cases ended
          | ok progress next =>
              rw [turned] at ended ends
              cases progress with
              | running =>
                  exact inductionHypothesis (.turn reaches queue turned) ended
              | finished =>
                  cases ended
                  cases ends with
                  | @performed decision _ _ performs goesOn =>
                      cases decision with
                      | accept state => exact ⟨frame, state, reaches, performs⟩
                      | shift => cases goesOn
                      | reduce => cases goesOn

end Invariants

/-- An action of a run is decided on, and never carried out. -/
def CutShort
    (deliver : Deliver ω)
    (table : Value)
    (start : Frame ω) :
    Prop :=
  ∃ before decision shown,
    Reaches deliver table start before ∧
      Decides table before decision shown ∧
      ∀ after, ¬ Performs deliver table before decision after

section CutShort

variable
  {deliver : Deliver ω}
  {table : Value}
  {start before shown : Frame ω}
  {decision : Decision}

/-- Where telling the observers does not come to an end, an action is cut short. -/
theorem cutShort_of_interrupted
    {after : Frame ω}
    {halt : Halt}
    (reaches : Reaches deliver table start before)
    (decides : Decides table before decision shown)
    (interrupted : notify deliver decision.event shown = .error halt after) :
    CutShort deliver table start := by
  refine ⟨before, decision, shown, reaches, decides, ?_⟩
  intro later performs
  cases performs with
  | intro decidesAgain notified committed prints =>
      obtain ⟨_, rfl⟩ := decides.unique decidesAgain
      rw [interrupted] at notified
      cases notified

/-- Where carrying out an action breaks off, it is cut short. -/
theorem cutShort_of_broken
    {told : Frame ω}
    {cause : Fault}
    {parser : Parser}
    (reaches : Reaches deliver table start before)
    (decides : Decides table before decision shown)
    (notified : notify deliver decision.event shown = .ok () told)
    (broken : Parser.commit decision told.parser = .error cause parser) :
    CutShort deliver table start := by
  refine ⟨before, decision, shown, reaches, decides, ?_⟩
  intro later performs
  cases performs with
  | intro decidesAgain notifiedAgain committed prints =>
      obtain ⟨_, rfl⟩ := decides.unique decidesAgain
      rw [notified] at notifiedAgain
      cases notifiedAgain
      rw [broken] at committed
      cases committed

end CutShort

/-- A parser that is loaded and has not run begins to run. -/
theorem start_begins
    {frame : Frame ω}
    (loaded : frame.parser.isLoaded = true)
    (unused : frame.parser.ran = false)
    (deliver : Deliver ω)
    (granted : Nat) :
    start deliver granted frame =
      drive deliver frame.parser.table granted frame.begun := by
  rw [start, bind_of_ok (parser_ok frame), loaded, unused]
  rfl

/-- A parser without a table or without tokens does not begin to run. -/
theorem start_of_unloaded
    {frame : Frame ω}
    (unloaded : frame.parser.isLoaded = false)
    (deliver : Deliver ω)
    (granted : Nat) :
    start deliver granted frame = .error (.fault .notLoaded) frame := by
  rw [start, bind_of_ok (parser_ok frame), unloaded]
  rfl

/-- A run either is refused and leaves the frame as it is, or begins. -/
theorem start_cases
    (deliver : Deliver ω)
    (granted : Nat)
    (frame : Frame ω) :
    (∃ cause,
      start deliver granted frame = .error (.fault cause) frame ∧
        cause.category = .runtime ∧
        (frame.parser.isLoaded = false ∨ frame.parser.ran = true)) ∨
    (frame.parser.ran = false ∧
      start deliver granted frame =
        drive deliver frame.parser.table granted frame.begun) := by
  cases loaded : frame.parser.isLoaded with
  | false =>
      exact
        .inl
          ⟨.notLoaded, start_of_unloaded loaded deliver granted, rfl, .inl rfl⟩
  | true =>
      cases ran : frame.parser.ran with
      | true =>
          refine .inl ⟨.alreadyRan, ?_, rfl, .inr rfl⟩
          rw [start, bind_of_ok (parser_ok frame), loaded, ran]
          rfl
      | false =>
          exact .inr ⟨rfl, start_begins loaded ran deliver granted⟩

/-- What holds of a refused run, and at the end of one that begins, holds of any run. -/
theorem start_exits
    {deliver : Deliver ω}
    {frame : Frame ω}
    (outside : Frame ω → Prop)
    (granted : Nat)
    (refused : outside frame)
    (driven :
      outside
        (frameAfter (drive deliver frame.parser.table granted) frame.begun)) :
    outside (frameAfter (start deliver granted) frame) := by
  rcases start_cases deliver granted frame with
      ⟨cause, ends, _⟩ | ⟨_, begins⟩
  · rwa [frameAfter_of_error ends]
  · simpa only [frameAfter, begins] using driven

/-- A run that returns has begun. -/
theorem drive_of_start_ok
    {deliver : Deliver ω}
    {granted : Nat}
    {frame after : Frame ω}
    (ended : start deliver granted frame = .ok () after) :
    drive deliver frame.parser.table granted frame.begun = .ok () after := by
  rcases start_cases deliver granted frame with
      ⟨cause, ends, _⟩ | ⟨_, begins⟩
  · rw [ends] at ended
    cases ended
  · rwa [begins] at ended

end Run

end ShiftReduce
