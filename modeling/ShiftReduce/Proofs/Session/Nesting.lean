import ShiftReduce.Proofs.Run.Alone
import ShiftReduce.Proofs.Run.Aloof
import ShiftReduce.Proofs.Session.Parsers

namespace ShiftReduce

/-!
# Nested requests in a session

In a session, several parsers are asked for something, to be set up or to run, and
observers who are called back by a run may ask in their turn (`Session.fulfil`).  All
requests that come to be made in this way are those of `Session.Makes`.

Parsers that have begun to run are minded: whatever else is asked for, they are left as
they are, and so is what they see of the store (`Session.Minds`).
-/

/-- A request agrees with a table that is shared: no other is loaded, and only observers listen. -/
def SetUp.Shares
    (table : Table) :
    SetUp → Prop
  | .register listener => ∃ name, listener = .observer name
  | .loadTable value => value = .table table
  | _ => True

namespace Parser

/-- A parser has been given a table or not, and tokens or not, and nothing has come of it yet. -/
structure Idle
    (table : Table)
    (parser : Parser) :
    Prop where
  loads :
    (parser.table = .none ∧ parser.states = []) ∨
      (parser.table = .table table ∧ parser.states = [table.initial])
  symbols : parser.symbols = [] ∨ parser.symbols = [bottomMarker]
  unaccepted : parser.accepted = false

/-- Only observers listen to a parser, and it is idle as long as it has not run. -/
structure Sound
    (table : Table)
    (parser : Parser) :
    Prop where
  observers :
    ∀ listener ∈ parser.registry.listeners, ∃ name, listener = .observer name
  idle : parser.ran = false → parser.Idle table

variable
  {table : Table}
  {parser : Parser}

theorem Sound.create
    (table : Table)
    (symbolTable : Value)
    (verbose : Bool) :
    (create symbolTable verbose).Sound table where
  observers := by simp [Parser.create, Registry.empty]
  idle _ := ⟨.inl ⟨rfl, rfl⟩, .inl rfl, rfl⟩

/-- An idle parser that is loaded holds the table and is about to read its tokens. -/
theorem Idle.loaded
    (idle : parser.Idle table)
    (loaded : parser.isLoaded = true) :
    parser.Loaded table parser.pending := by
  obtain ⟨held, filled⟩ := parser.isLoaded_iff.mp loaded
  rcases idle.loads with ⟨absent, _⟩ | ⟨isTable, states⟩
  · rw [absent] at held
    cases held
  · exact ⟨isTable, states, idle.symbols.resolve_left filled, rfl⟩

end Parser

/-- A request that agrees with the table leaves a sound parser sound, whether it fails or not. -/
theorem Run.setUp_sound
    {ω : Type}
    {table : Table}
    {request : SetUp}
    (receive : Receive ω)
    (shares : request.Shares table)
    (frame : Frame ω)
    (sound : frame.parser.Sound table) :
    (frameAfter (setUp receive request) frame).parser.Sound table := by
  have added
      {listener : Listener}
      (isObserver : ∃ name, listener = .observer name) :
      { frame.parser with
        registry := frame.parser.registry.add listener }.Sound table := by
    refine ⟨?_, fun unused => ?_⟩
    · intro listed member
      rcases List.mem_append.mp member with earlier | last
      · exact sound.observers listed earlier
      · rwa [List.mem_singleton.mp last]
    · obtain ⟨loads, symbols, unaccepted⟩ := sound.idle unused
      exact ⟨loads, symbols, unaccepted⟩
  rcases setUp_cases receive request frame with ⟨suits, ends⟩ | ⟨cause, ends⟩
  · rw [frameAfter_of_ok ends]
    cases request with
    | register listener => exact added shares
    | setVerbose verbose =>
        refine ⟨sound.observers, fun unused => ?_⟩
        obtain ⟨loads, symbols, unaccepted⟩ := sound.idle unused
        exact ⟨loads, symbols, unaccepted⟩
    | loadTable value =>
        cases shares
        refine ⟨sound.observers, fun unused => ?_⟩
        obtain ⟨_, symbols, unaccepted⟩ := sound.idle unused
        exact ⟨.inr ⟨rfl, rfl⟩, symbols, unaccepted⟩
    | loadTokens tokens =>
        obtain ⟨members, holds⟩ := suits
        simp only [SetUp.change, holds]
        refine ⟨sound.observers, fun unused => ?_⟩
        obtain ⟨loads, _, unaccepted⟩ := sound.idle unused
        exact ⟨loads, .inr rfl, unaccepted⟩
  · rw [frameAfter_of_error ends]
    cases request with
    | register listener => exact added shares
    | setVerbose verbose => exact sound
    | loadTokens tokens => exact sound
    | loadTable value =>
        cases shares
        cases ends

namespace Session

variable
  (receive : Receive Session)
  (conducts : String → Event → Conduct Session (String × Request))
  (granted : Nat)

/--
Carry out what one of the parsers is asked for, with observers who may ask for things in
their turn, for as many levels of nesting as are granted.
-/
def fulfil :
    Nat → String × Request → Deed Unit
  | 0, _ => throw .outOfSteps
  | _ + 1, (name, .setUp request) => asRun name (Run.setUp receive request)
  | levels + 1, (name, .run) =>
      asRun name
        (Run.start
          (fun listener event =>
            duringRun name ((conducts listener event).enact (fulfil levels)))
          granted)

/-- How observers attend to the events of a run, with a number of levels left to them. -/
def attending
    (levels : Nat)
    (name : String) :
    Deliver Session :=
  fun listener event =>
    duringRun name
      ((conducts listener event).enact
        (fulfil receive conducts granted levels))

theorem fulfil_run
    (levels : Nat)
    (name : String) :
    fulfil receive conducts granted (levels + 1) (name, .run) =
      asRun name
        (Run.start (attending receive conducts granted levels name) granted) :=
  rfl

variable {receive conducts granted} in
/-- A run that begins takes its course in the session. -/
theorem fulfil_begins
    {name : String}
    {session : Session}
    (loaded : (session.parser name).isLoaded = true)
    (unused : (session.parser name).ran = false)
    (levels : Nat) :
    fulfil receive conducts granted (levels + 1) (name, .run) session =
      match
        Run.drive (attending receive conducts granted levels name)
          (session.parser name).table granted (session.frame name).begun with
      | .ok result frame => .ok result (ofFrame name frame)
      | .error halt frame => .error halt (ofFrame name frame) := by
  have begins :
      Run.start (attending receive conducts granted levels name) granted
          (session.frame name) =
        Run.drive (attending receive conducts granted levels name)
          (session.parser name).table granted (session.frame name).begun :=
    Run.start_begins loaded unused _ granted
  rw [fulfil_run, asRun, begins]
  cases Run.drive (attending receive conducts granted levels name)
      (session.parser name).table granted (session.frame name).begun with
  | ok result frame => rfl
  | error halt frame => rfl

variable {receive conducts granted} in
theorem stateAfter_fulfil_begins
    {name : String}
    {session : Session}
    (loaded : (session.parser name).isLoaded = true)
    (unused : (session.parser name).ran = false)
    (levels : Nat) :
    (fulfil receive conducts granted (levels + 1) (name, .run)).stateAfter
        session =
      ofFrame name
        (Run.frameAfter
          (Run.drive (attending receive conducts granted levels name)
            (session.parser name).table granted)
          (session.frame name).begun) := by
  simp only [Activity.stateAfter, fulfil_begins loaded unused, Run.frameAfter]
  cases Run.drive (attending receive conducts granted levels name)
      (session.parser name).table granted (session.frame name).begun with
  | ok result frame => rfl
  | error halt frame => rfl

/--
A conduct comes to make a request in some session, or an observer does who is called back
by a run that was asked for, and so on.  The number is that of the levels that are left for
carrying the request out.
-/
inductive Makes :
    Nat → Conduct Session (String × Request) → Session →
      Nat → String × Request → Session → Prop where
  | act
      {levels left : Nat}
      {change : Session → Session}
      {next : Session → Conduct Session (String × Request)}
      {request : String × Request}
      {session moment : Session}
      (makes :
        Makes levels (next (change session)) (change session) left request
          moment) :
      Makes levels (.act change next) session left request moment
  | now
      {levels : Nat}
      {request : String × Request}
      {next : Option Fault → Conduct Session (String × Request)}
      {session : Session} :
      Makes levels (.ask request next) session levels request session
  | later
      {levels left : Nat}
      {first request : String × Request}
      {next : Option Fault → Conduct Session (String × Request)}
      {answer : Option Fault}
      {session after moment : Session}
      (answers :
        (fulfil receive conducts granted levels first).attempt session =
          .ok answer after)
      (makes : Makes levels (next answer) after left request moment) :
      Makes levels (.ask first next) session left request moment
  | within
      {levels left : Nat}
      {name listener : String}
      {event : Event}
      {request : String × Request}
      {next : Option Fault → Conduct Session (String × Request)}
      {session moment : Session}
      {heard : Frame Session}
      (loaded : (session.parser name).isLoaded = true)
      (unused : (session.parser name).ran = false)
      (callback :
        Run.Callback (attending receive conducts granted levels name)
          (session.parser name).table (session.frame name).begun listener event
          heard)
      (makes :
        Makes levels (conducts listener event) (ofFrame name heard) left
          request moment) :
      Makes (levels + 1) (.ask (name, .run) next) session left request moment

variable {receive conducts granted}

/-- What observers ask for in a run that is asked for is asked for, too. -/
theorem Makes.nested
    {levels left innerLeft : Nat}
    {conduct : Conduct Session (String × Request)}
    {name listener : String}
    {event : Event}
    {request : String × Request}
    {session moment inner : Session}
    {heard : Frame Session}
    (makes :
      Makes receive conducts granted levels conduct session (left + 1)
        (name, .run) moment)
    (loaded : (moment.parser name).isLoaded = true)
    (unused : (moment.parser name).ran = false)
    (callback :
      Run.Callback (attending receive conducts granted left name)
        (moment.parser name).table (moment.frame name).begun listener event
        heard)
    (makesInner :
      Makes receive conducts granted left (conducts listener event)
        (ofFrame name heard) innerLeft request inner) :
    Makes receive conducts granted levels conduct session innerLeft request
      inner := by
  generalize isLeft : left + 1 = total at makes
  generalize isRun : (name, Request.run) = asked at makes
  induction makes with
  | act _ inductionHypothesis =>
      exact .act (inductionHypothesis loaded unused callback isLeft isRun)
  | now =>
      subst isLeft isRun
      exact .within loaded unused callback makesInner
  | later answers _ inductionHypothesis =>
      exact
        .later answers
          (inductionHypothesis loaded unused callback isLeft isRun)
  | within outerLoaded outerUnused outerCallback _ inductionHypothesis =>
      exact
        .within outerLoaded outerUnused outerCallback
          (inductionHypothesis loaded unused callback isLeft isRun)

variable
  {table : Table}
  {name other : String}
  {before after first second third : Session}

/-- Whoever does this leaves all parsers alone, and everything that they see of the store. -/
def Leaves
    (table : Table)
    (before after : Session) :
    Prop :=
  ∀ name,
    after.parser name = before.parser name ∧
      table.SameSight (before.parser name).situation.Holds before.store
        after.store

/--
One session becomes another in which a parser is left alone if it has begun to run, stays
sound if it is, and finds the same table.
-/
structure MindsAt
    (table : Table)
    (name : String)
    (before after : Session) :
    Prop where
  kept :
    (before.parser name).ran = true →
      after.parser name = before.parser name ∧
        table.SameSight (before.parser name).situation.Holds before.store
          after.store
  sound :
    (before.parser name).Sound table → (after.parser name).Sound table
  sight : table.SameSight (fun _ => False) before.store after.store

/-- All parsers of a session are minded. -/
def Minds
    (table : Table)
    (before after : Session) :
    Prop :=
  ∀ name, MindsAt table name before after

namespace MindsAt

theorem of_eq
    (sameParser : after.parser name = before.parser name)
    (sameStore : after.store = before.store) :
    MindsAt table name before after where
  kept _ := ⟨sameParser, by rw [sameStore]; exact .refl table _ _⟩
  sound sound := by rwa [sameParser]
  sight := by rw [sameStore]; exact .refl table _ _

theorem trans
    (earlier : MindsAt table name first second)
    (later : MindsAt table name second third) :
    MindsAt table name first third where
  kept ran := by
    obtain ⟨same, sight⟩ := earlier.kept ran
    have keptLater := later.kept
    rw [same] at keptLater
    obtain ⟨sameLater, sightLater⟩ := keptLater ran
    exact ⟨sameLater, sight.trans sightLater⟩
  sound sound := later.sound (earlier.sound sound)
  sight := earlier.sight.trans later.sight

end MindsAt

theorem Minds.refl
    (table : Table)
    (session : Session) :
    Minds table session session :=
  fun _ => .of_eq rfl rfl

theorem Minds.trans
    (earlier : Minds table first second)
    (later : Minds table second third) :
    Minds table first third :=
  fun name => (earlier name).trans (later name)

theorem Leaves.minds
    (leaves : Leaves table before after) :
    Minds table before after := by
  intro name
  obtain ⟨same, sight⟩ := leaves name
  refine ⟨fun _ => ⟨same, sight⟩, fun sound => ?_, sight.mono ?_⟩
  · rwa [same]
  · exact fun _ nothing => nothing.elim

/-- A parser at work proceeds, and the other ones are minded meanwhile. -/
structure Proceeds
    (table : Table)
    (name : String)
    (before after : Frame Session) :
    Prop where
  others :
    ∀ other,
      other ≠ name →
        MindsAt table other (ofFrame name before) (ofFrame name after)
  sight : table.SameSight (fun _ => False) before.store after.store
  own :
    before.parser.ran = true →
      after.parser.ran = true ∧
        after.parser.registry = before.parser.registry

namespace Proceeds

variable {earlier middle later frame : Frame Session}

theorem of_eq
    (sameWorld : later.world = earlier.world)
    (sameStore : later.store = earlier.store)
    (own :
      earlier.parser.ran = true →
        later.parser.ran = true ∧
          later.parser.registry = earlier.parser.registry) :
    Proceeds table name earlier later where
  others other isOther := by
    refine .of_eq ?_ sameStore
    rw [parser_ofFrame_of_ne isOther, parser_ofFrame_of_ne isOther, sameWorld]
  sight := by rw [sameStore]; exact .refl table _ _
  own := own

theorem refl
    (frame : Frame Session) :
    Proceeds table name frame frame :=
  .of_eq rfl rfl fun ran => ⟨ran, rfl⟩

theorem trans
    (first : Proceeds table name earlier middle)
    (second : Proceeds table name middle later) :
    Proceeds table name earlier later where
  others other isOther :=
    (first.others other isOther).trans (second.others other isOther)
  sight := first.sight.trans second.sight
  own ran := by
    obtain ⟨ranMiddle, sameFirst⟩ := first.own ran
    obtain ⟨ranLater, sameSecond⟩ := second.own ranMiddle
    exact ⟨ranLater, sameSecond.trans sameFirst⟩

theorem prints
    (prints : earlier.PrintsTo later) :
    Proceeds table name earlier later := by
  refine .of_eq prints.world prints.store fun ran => ?_
  rw [prints.parser]
  exact ⟨ran, rfl⟩

/-- A parser with another parse has proceeded. -/
theorem parses
    {parser : Parser}
    (rest : parser = frame.parser.withParse parser) :
    Proceeds table name frame { frame with parser := parser } := by
  have registry := congrArg Parser.registry rest
  exact .of_eq rfl rfl fun ran =>
    ⟨(congrArg Parser.ran rest).trans ran, registry⟩

/-- What minds all parsers lets the parser at work proceed. -/
theorem minds
    (minds : Minds table (ofFrame name frame) after) :
    Proceeds table name frame (after.frame name) where
  others other isOther := by
    have minded := minds other
    refine minded.trans (.of_eq ?_ rfl)
    exact parser_ofFrame_of_ne isOther _
  sight := (minds name).sight
  own ran := by
    have kept := (minds name).kept
    rw [parser_ofFrame] at kept
    have same := (kept ran).1
    change (after.parser name).ran = true ∧ _
    rw [same]
    exact ⟨ran, congrArg Parser.registry same⟩

end Proceeds

/-- All are minded where one of the parsers begins to run and proceeds. -/
theorem Proceeds.begun
    {frame : Frame Session}
    (unused : (before.parser name).ran = false)
    (proceeds : Proceeds table name (before.frame name).begun frame) :
    Minds table before (ofFrame name frame) := by
  intro other
  by_cases isOwn : other = name
  · subst isOwn
    obtain ⟨ran, registry⟩ := proceeds.own rfl
    refine ⟨?_, ?_, proceeds.sight⟩
    · intro already
      rw [unused] at already
      cases already
    · intro sound
      rw [parser_ofFrame]
      refine ⟨?_, ?_⟩
      · rw [registry]
        exact sound.observers
      · intro notYet
        rw [ran] at notYet
        cases notYet
  · have begins :
        MindsAt table other before (ofFrame name (before.frame name).begun) :=
      .of_eq (parser_ofFrame_of_ne isOwn _) rfl
    exact begins.trans (proceeds.others other isOwn)

section Minding

variable
  (table)
  (receive conducts granted)

/--
Someone makes requests in order: only parsers that have not begun to run are set up, and
only with the table that is shared.
-/
def Orderly
    (levels : Nat)
    (conduct : Conduct Session (String × Request))
    (session : Session) :
    Prop :=
  ∀ left name request moment,
    Makes receive conducts granted levels conduct session left
        (name, .setUp request) moment →
      (moment.parser name).ran = false ∧ request.Shares table

variable
  {table}
  {receive conducts granted}
  {levels : Nat}
  {session : Session}
  {conduct : Conduct Session (String × Request)}
  (courteous :
    ∀ observer symbolTable world name,
      ((Listener.observer observer).receives receive symbolTable
          world).parser name =
        world.parser name)
  (sparing :
    ∀ listener event, (conducts listener event).Respects (Leaves table))

namespace Orderly

theorem act
    {change : Session → Session}
    {next : Session → Conduct Session (String × Request)}
    (orderly :
      Orderly receive conducts granted table levels (.act change next)
        session) :
    Orderly receive conducts granted table levels (next (change session))
      (change session) :=
  fun left name request moment makes =>
    orderly left name request moment (.act makes)

theorem later
    {first : String × Request}
    {next : Option Fault → Conduct Session (String × Request)}
    {answer : Option Fault}
    (orderly :
      Orderly receive conducts granted table levels (.ask first next) session)
    (answers :
      (fulfil receive conducts granted levels first).attempt session =
        .ok answer after) :
    Orderly receive conducts granted table levels (next answer) after :=
  fun left name request moment makes =>
    orderly left name request moment (.later answers makes)

theorem within
    {next : Option Fault → Conduct Session (String × Request)}
    {listener : String}
    {event : Event}
    {heard : Frame Session}
    (orderly :
      Orderly receive conducts granted table (levels + 1)
        (.ask (name, .run) next) session)
    (loaded : (session.parser name).isLoaded = true)
    (unused : (session.parser name).ran = false)
    (callback :
      Run.Callback (attending receive conducts granted levels name)
        (session.parser name).table (session.frame name).begun listener event
        heard) :
    Orderly receive conducts granted table levels (conducts listener event)
      (ofFrame name heard) :=
  fun left inner request moment makes =>
    orderly left inner request moment (.within loaded unused callback makes)

end Orderly

include courteous in
/-- Setting up a parser that has not begun to run minds all parsers. -/
theorem setUp_minds
    {request : SetUp}
    (unused : (session.parser name).ran = false)
    (shares : request.Shares table) :
    Minds table session
      ((asRun name (Run.setUp receive request)).stateAfter session) := by
  rw [stateAfter_asRun]
  have rest :
      ∃ parser,
        Run.frameAfter (Run.setUp receive request) (session.frame name) =
          { session.frame name with
            parser := parser
            world :=
              Run.worldAfter receive request (session.frame name) } := by
    rcases Run.setUp_cases receive request (session.frame name) with
        ⟨_, ends⟩ | ⟨cause, ends⟩
    · exact ⟨_, Run.frameAfter_of_ok ends⟩
    · exact ⟨_, Run.frameAfter_of_error ends⟩
  have sound := Run.setUp_sound receive shares (session.frame name)
  obtain ⟨parser, same⟩ := rest
  rw [same] at sound ⊢
  intro other
  by_cases isOwn : other = name
  · subst isOwn
    refine ⟨?_, ?_, .refl table _ _⟩
    · intro already
      rw [unused] at already
      cases already
    · rw [parser_ofFrame]
      exact sound
  · refine .of_eq ?_ rfl
    rw [parser_ofFrame_of_ne isOwn]
    cases request with
    | register listener =>
        obtain ⟨observer, rfl⟩ := shares
        exact courteous observer _ session other
    | _ => rfl

section Running

variable
  (each :
    ∀ listener event heard,
      Run.Callback (attending receive conducts granted levels name)
          (session.parser name).table (session.frame name).begun listener event
          heard →
        Minds table (ofFrame name heard)
          (((conducts listener event).enact
              (fulfil receive conducts granted levels)).stateAfter
            (ofFrame name heard)))

include each

/-- A parser proceeds by way of the callbacks of its run, as far as they mind all parsers. -/
theorem callback_proceeds
    (listener : String)
    (event : Event)
    (heard : Frame Session)
    (callback :
      Run.Callback (attending receive conducts granted levels name)
        (session.parser name).table (session.frame name).begun listener event
        heard) :
    Proceeds table name heard
      (Run.frameAfter
        (attending receive conducts granted levels name listener event)
        heard) := by
  rw [attending, frameAfter_duringRun]
  exact .minds (each listener event heard callback)

/-- A parser has proceeded when an observer is called back. -/
theorem proceeds_to_callback
    {listener : String}
    {event : Event}
    {heard : Frame Session}
    (callback :
      Run.Callback (attending receive conducts granted levels name)
        (session.parser name).table (session.frame name).begun listener event
        heard) :
    Proceeds table name (session.frame name).begun heard :=
  callback.relates (Proceeds table name) .refl .trans .prints
    (fun committed => .parses (Parser.commit_rest committed))
    (callback_proceeds each)

/-- A parser has proceeded when its run ends. -/
theorem proceeds_to_end :
    Proceeds table name (session.frame name).begun
      (Run.frameAfter
        (Run.drive (attending receive conducts granted levels name)
          (session.parser name).table granted)
        (session.frame name).begun) :=
  Run.drive_relates (Proceeds table name) .refl .trans .prints
    (fun committed => .parses (Parser.commit_rest committed))
    (fun broken => .parses (Parser.broken_rest broken))
    (callback_proceeds each) .start granted

/-- A run minds all parsers if its callbacks do. -/
theorem start_minds
    (unused : (session.parser name).ran = false)
    (loaded : (session.parser name).isLoaded = true) :
    Minds table session
      ((fulfil receive conducts granted (levels + 1)
        (name, .run)).stateAfter session) := by
  rw [stateAfter_fulfil_begins loaded unused]
  exact (proceeds_to_end each).begun unused

end Running

/-- Nothing becomes of a session by taking up the frame of a parser and leaving it again. -/
theorem minds_ofFrame
    (name : String)
    (session : Session) :
    Minds table session (ofFrame name (session.frame name)) := by
  intro other
  refine .of_eq ?_ rfl
  by_cases isOwn : other = name
  · rw [isOwn, parser_ofFrame]
    rfl
  · exact parser_ofFrame_of_ne isOwn _

/-- Where the requests of a conduct mind all parsers, so does the conduct as a whole. -/
theorem enact_minds_of
    (fulfils :
      ∀ request next session,
        Orderly receive conducts granted table levels (.ask request next)
            session →
          Minds table session
            ((fulfil receive conducts granted levels request).stateAfter
              session))
    (respects : conduct.Respects (Leaves table))
    (orderly : Orderly receive conducts granted table levels conduct session) :
    Minds table session
      ((conduct.enact (fulfil receive conducts granted levels)).stateAfter
        session) := by
  induction conduct generalizing session with
  | done => exact .refl table session
  | act change next inductionHypothesis =>
      obtain ⟨leaves, respectsNext⟩ := respects session
      refine leaves.minds.trans ?_
      exact inductionHypothesis _ respectsNext orderly.act
  | ask request next inductionHypothesis =>
      have minds := fulfils request next session orderly
      rcases Activity.attempt_cases
          (fulfil receive conducts granted levels request) session with
          ⟨answer, answers, _⟩ | ⟨endless, _⟩
      · simp only [Activity.stateAfter, Conduct.enact_of_answer answers]
        refine minds.trans ?_
        exact
          inductionHypothesis answer (respects answer) (orderly.later answers)
      · simp only [Activity.stateAfter, Conduct.enact_of_halt endless]
        exact minds

include courteous sparing

/-- Every request that is in order minds all parsers. -/
theorem fulfil_minds
    (levels : Nat)
    (request : String × Request)
    (next : Option Fault → Conduct Session (String × Request))
    (session : Session)
    (orderly :
      Orderly receive conducts granted table levels (.ask request next)
        session) :
    Minds table session
      ((fulfil receive conducts granted levels request).stateAfter
        session) := by
  induction levels generalizing request next session with
  | zero => exact .refl table session
  | succ levels inductionHypothesis =>
      obtain ⟨name, request⟩ := request
      cases request with
      | setUp asked =>
          obtain ⟨unused, shares⟩ := orderly _ name asked session .now
          exact setUp_minds courteous unused shares
      | run =>
          cases loaded : (session.parser name).isLoaded with
          | false =>
              rw [fulfil_run, stateAfter_asRun,
                Run.frameAfter_of_error
                  (Run.start_of_unloaded loaded _ granted)]
              exact minds_ofFrame name session
          | true =>
              cases unused : (session.parser name).ran with
              | true =>
                  rw [fulfil_run, stateAfter_asRun,
                    Run.frameAfter_of_error
                      (Run.start_of_engaged ⟨unused, loaded⟩ _ granted)]
                  exact minds_ofFrame name session
              | false =>
                  refine start_minds ?_ unused loaded
                  intro listener event heard callback
                  exact
                    enact_minds_of inductionHypothesis
                      (sparing listener event)
                      (orderly.within loaded unused callback)

/-- Whatever is done in order minds all parsers. -/
theorem enact_minds
    (respects : conduct.Respects (Leaves table))
    (orderly : Orderly receive conducts granted table levels conduct session) :
    Minds table session
      ((conduct.enact (fulfil receive conducts granted levels)).stateAfter
        session) :=
  enact_minds_of (fulfil_minds courteous sparing levels) respects orderly

end Minding

end Session

end ShiftReduce
