import ShiftReduce.Grammar.Single
import ShiftReduce.Proofs.Request.Conduct
import ShiftReduce.Proofs.Request.SetUp
import ShiftReduce.Proofs.Run.Aloof

namespace ShiftReduce

/-!
# One run, determined by the last loads

A parser may be set up and asked to run in any order, and its observers may ask it to run
from inside their callbacks.  Of all these runs one begins at most: the first that is
asked for once tokens and a table have been loaded.  The others are refused and change
nothing.  What the one run comes to depends on the last tokens, the last table and the
listeners alone (`Run.runs_once_by_last_loads`).
-/

namespace Request

/-- The request to set the parser up, unless it is asked to run. -/
def setUp? :
    Request → Option SetUp
  | .setUp request => some request
  | .run => none

/-- Both tokens and a table are among what was asked for. -/
def Complete
    (requests : List Request) :
    Prop :=
  (∃ tokens, .setUp (.loadTokens tokens) ∈ requests) ∧
    ∃ table, .setUp (.loadTable table) ∈ requests

/-- A run that is asked for next is the first one after both loaders. -/
structure Due
    (earlier : List Request) :
    Prop where
  complete : Complete earlier
  first :
    ∀ sooner between, earlier = sooner ++ .run :: between → ¬ Complete sooner

/-- There is only one place in a list of requests where a run is due. -/
theorem Due.unique
    {requests first second afterFirst afterSecond : List Request}
    (due : Due first)
    (otherDue : Due second)
    (split : requests = first ++ .run :: afterFirst)
    (otherSplit : requests = second ++ .run :: afterSecond) :
    first = second := by
  have same : first ++ .run :: afterFirst = second ++ .run :: afterSecond :=
    split.symm.trans otherSplit
  rcases List.append_eq_append_iff.mp same with shorter | longer
  · obtain ⟨between, secondIs, restIs⟩ := shorter
    cases between with
    | nil => rw [secondIs, List.append_nil]
    | cons request others =>
        cases (List.cons.inj restIs).1
        exact (otherDue.first first others secondIs due.complete).elim
  · obtain ⟨between, firstIs, restIs⟩ := longer
    cases between with
    | nil => rw [firstIs, List.append_nil]
    | cons request others =>
        cases (List.cons.inj restIs).1
        exact (due.first second others firstIs otherDue.complete).elim

/-- A request in a longer list is the last one, or stands in the list without the last. -/
theorem split_last
    {request found : Request}
    {earlier sooner between : List Request}
    (split : earlier ++ [request] = sooner ++ found :: between) :
    (sooner = earlier ∧ found = request) ∨
      ∃ others, earlier = sooner ++ found :: others := by
  rcases List.eq_nil_or_concat between with rfl | ⟨others, last, rfl⟩
  · obtain ⟨rfl, isFound⟩ := List.append_inj' split rfl
    exact .inl ⟨rfl, (List.singleton_inj.mp isFound).symm⟩
  · rw [List.concat_eq_append, ← List.cons_append, ← List.append_assoc] at split
    exact .inr ⟨others, (List.append_inj' split rfl).1⟩

theorem Complete.append
    {earlier : List Request}
    (complete : Complete earlier)
    (later : List Request) :
    Complete (earlier ++ later) := by
  obtain ⟨⟨tokens, isTokens⟩, table, isTable⟩ := complete
  exact
    ⟨⟨tokens, List.mem_append_left _ isTokens⟩,
      ⟨table, List.mem_append_left _ isTable⟩⟩

theorem mem_setUps_iff
    {request : SetUp}
    {requests : List Request} :
    request ∈ requests.filterMap setUp? ↔ .setUp request ∈ requests := by
  rw [List.mem_filterMap]
  constructor
  · rintro ⟨found, member, isSetUp⟩
    cases found with
    | setUp other =>
        cases isSetUp
        exact member
    | run => cases isSetUp
  · intro member
    exact ⟨_, member, rfl⟩

end Request

namespace SetUp

theorem last?_isSome_iff
    {α : Type}
    {part : SetUp → Option α}
    {requests : List SetUp} :
    (last? part requests).isSome = true ↔
      ∃ request ∈ requests, ∃ thing, part request = some thing := by
  rw [last?, List.getLast?_isSome]
  constructor
  · intro nonempty
    obtain ⟨thing, member⟩ := List.exists_mem_of_ne_nil _ nonempty
    obtain ⟨request, listed, brings⟩ := List.mem_filterMap.mp member
    exact ⟨request, listed, thing, brings⟩
  · rintro ⟨request, listed, thing, brings⟩
    exact List.ne_nil_of_mem (List.mem_filterMap.mpr ⟨request, listed, brings⟩)

/-- Registering listeners does not count where something else is asked about. -/
theorem last?_of_registered
    {α : Type}
    {part : SetUp → Option α}
    (listeners : List Listener)
    (silent : ∀ listener, part (.register listener) = none)
    (rest : List SetUp) :
    last? part (listeners.map .register ++ rest) = last? part rest := by
  induction listeners with
  | nil => rfl
  | cons listener others inductionHypothesis =>
      rw [List.map_cons, List.cons_append, last?_cons, inductionHypothesis,
        silent, Option.or_none]

end SetUp

/-- Requests are complete just if they bring tokens and a table. -/
theorem Request.complete_iff
    (requests : List Request) :
    Complete requests ↔
      (SetUp.last? SetUp.tokens? (requests.filterMap setUp?)).isSome = true ∧
        (SetUp.last? SetUp.table? (requests.filterMap setUp?)).isSome =
          true := by
  rw [SetUp.last?_isSome_iff, SetUp.last?_isSome_iff]
  constructor
  · rintro ⟨⟨tokens, isTokens⟩, table, isTable⟩
    exact
      ⟨⟨_, mem_setUps_iff.mpr isTokens, tokens, rfl⟩,
        ⟨_, mem_setUps_iff.mpr isTable, table, rfl⟩⟩
  · rintro ⟨⟨first, isFirst, tokens, brings⟩, second, isSecond, table, holds⟩
    constructor
    · cases first with
      | loadTokens tokens => exact ⟨tokens, mem_setUps_iff.mp isFirst⟩
      | _ => cases brings
    · cases second with
      | loadTable table => exact ⟨table, mem_setUps_iff.mp isSecond⟩
      | _ => cases holds

/-- The frame as several requests leave it, where the last of each kind counts. -/
def Frame.outfit
    {ω : Type}
    (receive : Receive ω)
    (requests : List SetUp)
    (frame : Frame ω) :
    Frame ω :=
  { frame with
    parser := SetUp.outfit frame.store requests frame.parser
    world :=
      (requests.filterMap SetUp.listener?).foldl
        (Listener.receives receive frame.parser.registry.symbolTable)
        frame.world }

namespace Run

variable
  {ω : Type}
  {receive : Receive ω}

/-- A request that suits changes the parser as it should, even if an observer protests. -/
theorem frameAfter_setUp
    {request : SetUp}
    {frame : Frame ω}
    (suits : request.Suits frame.store) :
    frameAfter (setUp receive request) frame =
      { frame with
        parser := request.change frame.store frame.parser
        world := worldAfter receive request frame } := by
  rcases setUp_cases receive request frame with ⟨_, ends⟩ | ⟨cause, ends⟩
  · exact frameAfter_of_ok ends
  · rw [frameAfter_of_error ends]
    cases request with
    | register listener => rfl
    | setVerbose verbose => cases ends
    | loadTokens tokens =>
        obtain ⟨members, holds⟩ := suits
        change operate (Parser.loadTokens frame.store tokens) frame = _ at ends
        simp only [operate, Parser.loadTokens, holds] at ends
        cases ends
    | loadTable table =>
        obtain ⟨loaded, rfl⟩ := suits
        cases ends

/-- Requests that suit leave the frame as the last of each kind has it. -/
theorem tryAll_of_suits
    {requests : List SetUp}
    {frame : Frame ω}
    (suit : ∀ request ∈ requests, request.Suits frame.store) :
    tryAll (setUp receive) requests frame = frame.outfit receive requests := by
  induction requests generalizing frame with
  | nil => simp [tryAll, Frame.outfit, SetUp.outfit]
  | cons request rest inductionHypothesis =>
      rw [List.forall_mem_cons] at suit
      rw [tryAll, frameAfter_setUp suit.1]
      refine (inductionHypothesis ?_).trans ?_
      · exact suit.2
      rw [Frame.outfit, Frame.outfit, SetUp.outfit_cons suit.1]
      cases request with
      | register listener => rfl
      | setVerbose verbose => rfl
      | loadTable table =>
          obtain ⟨loaded, rfl⟩ := suit.1
          rfl
      | loadTokens tokens =>
          obtain ⟨members, holds⟩ := suit.1
          simp only [SetUp.change, holds, worldAfter, SetUp.listener?,
            List.filterMap_cons]

/-- Carry out what a parser is asked for. -/
def fulfil
    (receive : Receive ω)
    (deliver : Deliver ω)
    (granted : Nat) :
    Request → Run ω Unit
  | .setUp request => setUp receive request
  | .run => start deliver granted

section Deliveries

variable (conducts : String → Event → Conduct (Frame ω) Unit)

/--
How observers attend to events that may ask the parser at work to run, for as many
levels of nesting as are granted.
-/
def attending
    (granted : Nat) :
    Nat → Deliver ω
  | 0 => fun _ _ => throw .outOfSteps
  | levels + 1 =>
      fun name event =>
        (conducts name event).enact fun _ =>
          start (attending granted levels) granted

/-- How observers attend to events if every run they ask for is refused out of hand. -/
def refusing : Deliver ω :=
  fun name event =>
    (conducts name event).enact fun _ => throw (.fault .alreadyRan)

variable
  {conducts}
  (polite :
    ∀ name event,
      (conducts name event).Respects fun before after =>
        after.parser = before.parser)

include polite

theorem refusing_aloof
    (table : Value)
    (start : Frame ω) :
    Aloof (refusing conducts) table start := by
  intro name event moment _
  rw [frameAfter_eq_stateAfter]
  refine
    Conduct.enact_relates (fun before after => after.parser = before.parser)
      (fun _ => rfl) ?_ ?_ (polite name event) moment
  · intro earlier middle later first second
    exact second.trans first
  · intro request state
    rfl

/-- Whoever asks an engaged parser to run is refused. -/
theorem attending_eq_refusing
    {moment : Frame ω}
    (engaged : moment.parser.Engaged)
    (granted levels : Nat)
    (name : String)
    (event : Event) :
    attending conducts granted (levels + 1) name event moment =
      refusing conducts name event moment := by
  refine
    Conduct.enact_congr (fun frame => frame.parser = moment.parser) ?_ ?_ rfl
  · intro request frame same
    rw [← same] at engaged
    exact ⟨start_of_engaged engaged _ granted, same⟩
  · exact (polite name event).mono fun before after kept same => kept.trans same

section Beginning

variable
  {frame : Frame ω}
  (loaded : frame.parser.isLoaded = true)
  (unused : frame.parser.ran = false)
  (unaccepted : frame.parser.accepted = false)
  (granted levels : Nat)

include loaded unaccepted

/-- Where a run has begun, whoever asks for another one is refused. -/
theorem refusing_agrees
    (name : String)
    (event : Event)
    (moment : Frame ω)
    (callback :
      Callback (refusing conducts) frame.parser.table frame.begun name event
        moment) :
    refusing conducts name event moment =
      attending conducts granted (levels + 1) name event moment := by
  have engaged : frame.begun.parser.Engaged := ⟨rfl, loaded⟩
  have aloof := refusing_aloof polite frame.parser.table frame.begun
  have still := (aloof.callback engaged unaccepted callback).1
  exact (attending_eq_refusing polite still granted levels name event).symm

/-- Observers who ask for a run in a run are refused, and find that nothing is accepted. -/
theorem attending_callback
    {name : String}
    {event : Event}
    {moment : Frame ω}
    (callback :
      Callback (attending conducts granted (levels + 1)) frame.parser.table
        frame.begun name event moment) :
    moment.parser.accepted = false ∧
      start (attending conducts granted levels) granted moment =
        .error (.fault .alreadyRan) moment := by
  have engaged : frame.begun.parser.Engaged := ⟨rfl, loaded⟩
  have aloof := refusing_aloof polite frame.parser.table frame.begun
  have agree := refusing_agrees polite loaded unaccepted granted levels
  have still := aloof.callback engaged unaccepted (callback.congr agree)
  exact ⟨still.2, start_of_engaged still.1 _ granted⟩

include unused

/-- A run takes its course as if each run asked for meanwhile were refused out of hand. -/
theorem start_attending :
    start (attending conducts granted (levels + 1)) granted frame =
      start (refusing conducts) granted frame := by
  rw [start_begins loaded unused, start_begins loaded unused]
  exact
    (drive_congr (refusing_agrees polite loaded unaccepted granted levels)
      .start granted).symm

/-- A run that has begun leaves the parser engaged. -/
theorem start_engaged :
    (frameAfter (start (attending conducts granted (levels + 1)) granted)
      frame).parser.Engaged := by
  have engaged : frame.begun.parser.Engaged := ⟨rfl, loaded⟩
  have aloof := refusing_aloof polite frame.parser.table frame.begun
  have ends := aloof.drive_engaged engaged granted
  simp only [frameAfter, ← start_begins loaded unused] at ends
  simp only [frameAfter,
    start_attending polite loaded unused unaccepted granted levels]
  exact ends

end Beginning

end Deliveries

section New

variable
  {frame : Frame ω}
  {symbolTable : Value}
  {verbose : Bool}
  (new : frame.parser = .create symbolTable verbose)

include new

/-- A new parser is loaded once requests that suit are complete. -/
theorem outfit_isLoaded_iff
    (receive : Receive ω)
    {requests : List Request}
    (suit :
      ∀ request ∈ requests.filterMap Request.setUp?,
        request.Suits frame.store) :
    (frame.outfit receive
        (requests.filterMap Request.setUp?)).parser.isLoaded =
        true ↔
      Request.Complete requests := by
  rw [Request.complete_iff, Parser.isLoaded_iff]
  simp only [Frame.outfit, SetUp.outfit, new, Parser.create]
  rw [and_comm]
  apply and_congr
  · cases SetUp.last? SetUp.tokens? (requests.filterMap Request.setUp?) with
    | none => simp
    | some tokens => simp
  · cases last :
        SetUp.last? SetUp.table? (requests.filterMap Request.setUp?) with
    | none => simp [Value.isNone]
    | some table =>
        obtain ⟨loaded, rfl⟩ := SetUp.suits_of_last suit last
        simp [Value.isNone]

/--
What counts of complete requests is the last tokens, the last table and the listeners,
whichever of the two is loaded first.
-/
theorem outfit_eq_fresh
    {requests : List SetUp}
    {tokens table : Value}
    (suit : ∀ request ∈ requests, request.Suits frame.store)
    (lastTokens : SetUp.last? SetUp.tokens? requests = some tokens)
    (lastTable : SetUp.last? SetUp.table? requests = some table)
    {loads : List SetUp}
    (either :
      loads = [.loadTokens tokens, .loadTable table] ∨
        loads = [.loadTable table, .loadTokens tokens]) :
    tryAll (setUp receive)
        ((requests.filterMap SetUp.listener?).map .register ++ loads)
        { frame with
          parser :=
            .create symbolTable
              (frame.outfit receive requests).parser.verbose } =
      frame.outfit receive requests := by
  have listed :
      ((requests.filterMap SetUp.listener?).map SetUp.register ++
          loads).filterMap SetUp.listener? =
        requests.filterMap SetUp.listener? := by
    rcases either with rfl | rfl <;>
      simp [List.filterMap_append, Function.comp_def, SetUp.listener?]
  have isTable :
      SetUp.last? SetUp.table?
          ((requests.filterMap SetUp.listener?).map .register ++ loads) =
        some table := by
    rw [SetUp.last?_of_registered _ fun _ => rfl]
    rcases either with rfl | rfl <;> rfl
  have areTokens :
      SetUp.last? SetUp.tokens?
          ((requests.filterMap SetUp.listener?).map .register ++ loads) =
        some tokens := by
    rw [SetUp.last?_of_registered _ fun _ => rfl]
    rcases either with rfl | rfl <;> rfl
  have isSilent :
      SetUp.last? SetUp.verbose?
          ((requests.filterMap SetUp.listener?).map .register ++ loads) =
        none := by
    rw [SetUp.last?_of_registered _ fun _ => rfl]
    rcases either with rfl | rfl <;> rfl
  rw [tryAll_of_suits]
  · simp only [Frame.outfit, SetUp.outfit, listed, isTable, areTokens, isSilent,
      lastTokens, lastTable, new, Parser.create]
    rfl
  · rw [List.forall_mem_append, List.forall_mem_map]
    constructor
    · intro listener member
      obtain ⟨request, listed, brings⟩ := List.mem_filterMap.mp member
      cases request with
      | register other =>
          cases brings
          exact suit _ listed
      | _ => cases brings
    · have suitsTable : SetUp.Suits frame.store (.loadTable table) :=
        SetUp.suits_of_last suit lastTable
      have suitsTokens : SetUp.Suits frame.store (.loadTokens tokens) := by
        obtain ⟨request, member, brings⟩ := SetUp.mem_of_last lastTokens
        cases request with
        | loadTokens other =>
            cases brings
            exact suit _ member
        | _ => cases brings
      rcases either with rfl | rfl <;> simp [suitsTable, suitsTokens]

end New

/-- Where requests have led: the one run is still to come, or it is over. -/
inductive Stage
    (receive : Receive ω)
    (frame : Frame ω)
    (earlier : List Request)
    (after : Frame ω) :
    Prop where
  | waiting
      (unrun :
        ∀ sooner between,
          earlier = sooner ++ .run :: between → ¬ Request.Complete sooner)
      (suit :
        ∀ request ∈ earlier.filterMap Request.setUp?,
          request.Suits frame.store)
      (outfits :
        after = frame.outfit receive (earlier.filterMap Request.setUp?))
  | spent
      {sooner between : List Request}
      (split : earlier = sooner ++ .run :: between)
      (complete : Request.Complete sooner)
      (engaged : after.parser.Engaged)

/-- Setting a parser up has no effect on its verdict. -/
theorem setUp_accepted
    (request : SetUp)
    (before : Frame ω) :
    (frameAfter (setUp receive request) before).parser.accepted =
      before.parser.accepted := by
  rcases setUp_cases receive request before with ⟨suits, ends⟩ | ⟨cause, ends⟩
  · rw [frameAfter_of_ok ends]
    cases request with
    | register listener => rfl
    | setVerbose verbose => rfl
    | loadTable table =>
        obtain ⟨loaded, rfl⟩ := suits
        rfl
    | loadTokens tokens =>
        obtain ⟨members, holds⟩ := suits
        simp only [SetUp.change, holds]
  · rw [frameAfter_of_error ends]
    cases request with
    | _ => rfl

/-- Setting an engaged parser up once more keeps it engaged. -/
theorem setUp_engaged
    {request : SetUp}
    {before after : Frame ω}
    (engaged : before.parser.Engaged)
    (succeeds : setUp receive request before = .ok () after) :
    after.parser.Engaged := by
  obtain ⟨suits, rfl⟩ := setUp_ok succeeds
  obtain ⟨held, filled⟩ := before.parser.isLoaded_iff.mp engaged.loaded
  cases request with
  | register listener => exact ⟨engaged.ran, engaged.loaded⟩
  | setVerbose verbose => exact ⟨engaged.ran, engaged.loaded⟩
  | loadTable table =>
      obtain ⟨loaded, rfl⟩ := suits
      exact ⟨engaged.ran, (Parser.isLoaded_iff _).mpr ⟨rfl, filled⟩⟩
  | loadTokens tokens =>
      obtain ⟨members, holds⟩ := suits
      simp only [SetUp.change, holds]
      exact
        ⟨engaged.ran, (Parser.isLoaded_iff _).mpr ⟨held, List.cons_ne_nil _ _⟩⟩

section Sequences

variable
  {conducts : String → Event → Conduct (Frame ω) Unit}
  {frame before : Frame ω}
  {symbolTable : Value}
  {verbose : Bool}
  {earlier : List Request}
  (granted levels : Nat)
  (new : frame.parser = .create symbolTable verbose)
  (polite :
    ∀ name event,
      (conducts name event).Respects fun before after =>
        after.parser = before.parser)

namespace Stage

/-- The parser of a waiting frame has neither run nor accepted anything. -/
theorem outfit_unused
    (receive : Receive ω)
    (frame : Frame ω)
    (requests : List SetUp) :
    (frame.outfit receive requests).parser.ran = frame.parser.ran ∧
      (frame.outfit receive requests).parser.accepted =
        frame.parser.accepted :=
  ⟨rfl, rfl⟩

include new

/-- What has been accepted stays accepted. -/
theorem accepted_next
    (stage : Stage receive frame earlier before)
    (deliver : Deliver ω)
    (request : Request)
    (accepted : before.parser.accepted = true) :
    (frameAfter (fulfil receive deliver granted request)
      before).parser.accepted = true := by
  cases stage with
  | waiting unrun suit outfits =>
      rw [outfits, (outfit_unused receive frame _).2, new] at accepted
      cases accepted
  | spent split complete engaged =>
      cases request with
      | run =>
          rw [fulfil, frameAfter_of_error (start_of_engaged engaged _ granted)]
          exact accepted
      | setUp asked =>
          rw [fulfil, setUp_accepted]
          exact accepted

include polite

/-- One more request leads from stage to stage. -/
theorem next
    (stage : Stage receive frame earlier before)
    (request : Request)
    (succeeds :
      ∀ asked,
        request = .setUp asked →
          ∃ after, setUp receive asked before = .ok () after) :
    Stage receive frame (earlier ++ [request])
      (frameAfter
        (fulfil receive (attending conducts granted (levels + 1)) granted
          request)
        before) := by
  cases stage with
  | @spent sooner between split complete engaged =>
      have splitLater :
          earlier ++ [request] = sooner ++ .run :: (between ++ [request]) := by
        rw [split, List.append_assoc, List.cons_append]
      refine .spent splitLater complete ?_
      cases request with
      | run =>
          rw [fulfil, frameAfter_of_error (start_of_engaged engaged _ granted)]
          exact engaged
      | setUp asked =>
          obtain ⟨after, ends⟩ := succeeds asked rfl
          rw [fulfil, frameAfter_of_ok ends]
          exact setUp_engaged engaged ends
  | waiting unrun suit outfits =>
      subst outfits
      cases request with
      | setUp asked =>
          obtain ⟨after, ends⟩ := succeeds asked rfl
          have suits : asked.Suits frame.store := (setUp_ok ends).1
          have allSuit :
              ∀ request ∈ earlier.filterMap Request.setUp? ++ [asked],
                request.Suits frame.store := by
            rw [List.forall_mem_append, List.forall_mem_singleton]
            exact ⟨suit, suits⟩
          have setUps :
              (earlier ++ [Request.setUp asked]).filterMap Request.setUp? =
                earlier.filterMap Request.setUp? ++ [asked] := by
            rw [List.filterMap_append]
            rfl
          refine .waiting ?_ ?_ ?_
          · intro sooner between split
            rcases Request.split_last split with ⟨_, isRun⟩ | ⟨others, shorter⟩
            · cases isRun
            · exact unrun sooner others shorter
          · rw [setUps]
            exact allSuit
          · rw [setUps, ← tryAll_of_suits allSuit, tryAll_append,
              tryAll_of_suits suit]
            rfl
      | run =>
          have setUps :
              (earlier ++ [Request.run]).filterMap Request.setUp? =
                earlier.filterMap Request.setUp? := by
            rw [List.filterMap_append]
            exact List.append_nil _
          have loadedIff := outfit_isLoaded_iff new receive suit
          by_cases complete : Request.Complete earlier
          · refine .spent rfl complete ?_
            have unused :=
              outfit_unused receive frame (earlier.filterMap Request.setUp?)
            rw [new] at unused
            exact
              start_engaged polite (loadedIff.mpr complete) unused.1 unused.2
                granted levels
          · have unloaded :=
              Bool.eq_false_iff.mpr (complete ∘ loadedIff.mp)
            refine .waiting ?_ ?_ ?_
            · intro sooner between split
              rcases Request.split_last split with ⟨rfl, _⟩ | ⟨others, shorter⟩
              · exact complete
              · exact unrun sooner others shorter
            · rw [setUps]
              exact suit
            · rw [setUps, fulfil,
                frameAfter_of_error (start_of_unloaded unloaded _ granted)]

/-- However many requests there are, they lead from stage to stage. -/
theorem onward
    {rest : List Request}
    (stage : Stage receive frame earlier before)
    (succeed :
      ∀ sooner asked later,
        rest = sooner ++ .setUp asked :: later →
          ∃ after,
            setUp receive asked
                (tryAll
                  (fulfil receive (attending conducts granted (levels + 1))
                    granted)
                  sooner before) =
              .ok () after) :
    Stage receive frame (earlier ++ rest)
      (tryAll
        (fulfil receive (attending conducts granted (levels + 1)) granted)
        rest before) := by
  induction rest generalizing earlier before with
  | nil => rwa [List.append_nil]
  | cons request rest inductionHypothesis =>
      have first :=
        stage.next granted levels new polite request fun asked isAsked =>
          succeed [] asked rest (by rw [isAsked]; rfl)
      rw [← List.singleton_append, ← List.append_assoc]
      apply inductionHypothesis first
      intro sooner asked later split
      exact succeed (request :: sooner) asked later (by rw [split]; rfl)

end Stage

end Sequences

/--
The frame after a parser has been asked for several things in order, whatever came of
them, with observers who may ask it to run from inside their callbacks.
-/
def afterAsking
    (receive : Receive ω)
    (conducts : String → Event → Conduct (Frame ω) Unit)
    (granted levels : Nat)
    (requests : List Request)
    (frame : Frame ω) :
    Frame ω :=
  tryAll (fulfil receive (attending conducts granted (levels + 1)) granted)
    requests frame

section Sequences

variable
  {conducts : String → Event → Conduct (Frame ω) Unit}
  {frame : Frame ω}
  {symbolTable : Value}
  {verbose : Bool}
  {requests : List Request}
  {granted levels : Nat}
  (new : frame.parser = .create symbolTable verbose)
  (polite :
    ∀ name event,
      (conducts name event).Respects fun before after =>
        after.parser = before.parser)
  (succeed :
    ∀ earlier asked later,
      requests = earlier ++ .setUp asked :: later →
        ∃ after,
          setUp receive asked
              (afterAsking receive conducts granted levels earlier frame) =
            .ok () after)

include new polite succeed

/-- Requests lead from stage to stage, as far as one cares to look. -/
theorem afterAsking_stage
    {earlier later : List Request}
    (split : requests = earlier ++ later) :
    Stage receive frame earlier
      (afterAsking receive conducts granted levels earlier frame) := by
  have initially : Stage receive frame [] frame := by
    refine .waiting ?_ ?_ ?_
    · intro sooner between isSplit
      exact absurd isSplit (by simp)
    · simp
    · simp [Frame.outfit, SetUp.outfit]
  refine initially.onward granted levels new polite ?_
  intro sooner asked between isEarlier
  apply succeed sooner asked (between ++ later)
  rw [split, isEarlier, List.append_assoc, List.cons_append]

theorem afterAsking_accepted
    {earlier later : List Request}
    (split : requests = earlier ++ later)
    (accepted :
      (afterAsking receive conducts granted levels earlier
        frame).parser.accepted = true) :
    (afterAsking receive conducts granted levels requests
      frame).parser.accepted = true := by
  induction later generalizing earlier with
  | nil => rwa [split, List.append_nil]
  | cons request rest inductionHypothesis =>
      have stage := afterAsking_stage new polite succeed split
      have splitNext : requests = (earlier ++ [request]) ++ rest := by
        rw [split, List.append_assoc, List.singleton_append]
      apply inductionHypothesis splitNext
      rw [afterAsking, tryAll_append]
      exact stage.accepted_next granted new _ request accepted

/--
A parser runs once, and its run is determined by what was loaded last.

Whatever a new parser is asked for in whatever order, provided that all set-ups succeed,
a run that is asked for is refused without any effect as long as tokens and a table have
not both been loaded.  The first run that is asked for after that begins; there is only
one such run, and all later ones are refused without any effect.  Observers who ask for
a run from inside their callbacks are refused, too, and the run takes its course as if
they had been refused without the parser being asked at all.  The run begins with the
frame that a fresh parser has which is given the same listeners in the same order, and
only the last tokens and the last table, whichever of them first.  Nothing is accepted
before the end of the run, and what is accepted stays so.
-/
theorem runs_once_by_last_loads :
    (∀ earlier later,
      requests = earlier ++ .run :: later →
        (¬ Request.Complete earlier →
          start (attending conducts granted (levels + 1)) granted
              (afterAsking receive conducts granted levels earlier frame) =
            .error (.fault .notLoaded)
              (afterAsking receive conducts granted levels earlier frame)) ∧
        (Request.Complete earlier →
          ¬ Request.Due earlier →
          start (attending conducts granted (levels + 1)) granted
              (afterAsking receive conducts granted levels earlier frame) =
            .error (.fault .alreadyRan)
              (afterAsking receive conducts granted levels earlier frame)) ∧
        (Request.Due earlier →
          start (attending conducts granted (levels + 1)) granted
              (afterAsking receive conducts granted levels earlier frame) =
            drive (attending conducts granted (levels + 1))
              (afterAsking receive conducts granted levels earlier
                frame).parser.table
              granted
              (afterAsking receive conducts granted levels earlier
                frame).begun ∧
          start (attending conducts granted (levels + 1)) granted
              (afterAsking receive conducts granted levels earlier frame) =
            start (refusing conducts) granted
              (afterAsking receive conducts granted levels earlier frame) ∧
          (∀ name event moment,
            Callback (attending conducts granted (levels + 1))
                (afterAsking receive conducts granted levels earlier
                  frame).parser.table
                (afterAsking receive conducts granted levels earlier
                  frame).begun
                name event moment →
              moment.parser.accepted = false ∧
                start (attending conducts granted levels) granted moment =
                  .error (.fault .alreadyRan) moment) ∧
          ∃ tokens table,
            SetUp.last? SetUp.tokens? (earlier.filterMap Request.setUp?) =
                some tokens ∧
              SetUp.last? SetUp.table? (earlier.filterMap Request.setUp?) =
                some table ∧
              ∀ loads,
                loads = [.loadTokens tokens, .loadTable table] ∨
                    loads = [.loadTable table, .loadTokens tokens] →
                  tryAll (setUp receive)
                      (((earlier.filterMap Request.setUp?).filterMap
                          SetUp.listener?).map .register ++
                        loads)
                      { frame with
                        parser :=
                          .create symbolTable
                            (afterAsking receive conducts granted levels
                              earlier frame).parser.verbose } =
                    afterAsking receive conducts granted levels earlier
                      frame)) ∧
    (∀ first second afterFirst afterSecond,
      requests = first ++ .run :: afterFirst →
        requests = second ++ .run :: afterSecond →
          Request.Due first → Request.Due second → first = second) ∧
    (∀ earlier later,
      requests = earlier ++ later →
        (afterAsking receive conducts granted levels earlier
            frame).parser.accepted = true →
          (afterAsking receive conducts granted levels requests
            frame).parser.accepted = true) := by
  refine ⟨?_, ?_, ?_⟩
  · intro earlier later split
    have stage := afterAsking_stage new polite succeed split
    generalize
      afterAsking receive conducts granted levels earlier frame = reached
        at stage ⊢
    cases stage with
    | @spent sooner between isEarlier complete engaged =>
        have spentAll : Request.Complete earlier := by
          rw [isEarlier]
          exact complete.append _
        refine ⟨fun lacking => (lacking spentAll).elim, ?_, ?_⟩
        · intro _ _
          exact start_of_engaged engaged _ granted
        · intro due
          exact (due.first sooner between isEarlier complete).elim
    | waiting unrun suit outfits =>
        have loadedIff := outfit_isLoaded_iff new receive suit
        rw [← outfits] at loadedIff
        have unused : reached.parser.ran = false := by
          rw [outfits, (Stage.outfit_unused receive frame _).1, new]
          rfl
        have unaccepted : reached.parser.accepted = false := by
          rw [outfits, (Stage.outfit_unused receive frame _).2, new]
          rfl
        refine ⟨?_, ?_, ?_⟩
        · intro lacking
          exact
            start_of_unloaded (Bool.eq_false_iff.mpr (lacking ∘ loadedIff.mp))
              _ granted
        · intro complete undue
          exact (undue ⟨complete, unrun⟩).elim
        · intro due
          have loaded := loadedIff.mpr due.complete
          refine
            ⟨start_begins loaded unused _ granted,
              start_attending polite loaded unused unaccepted granted levels,
              fun name event moment callback =>
                attending_callback polite loaded unaccepted granted levels
                  callback,
              ?_⟩
          obtain ⟨hasTokens, hasTable⟩ :=
            (Request.complete_iff earlier).mp due.complete
          obtain ⟨tokens, lastTokens⟩ := Option.isSome_iff_exists.mp hasTokens
          obtain ⟨table, lastTable⟩ := Option.isSome_iff_exists.mp hasTable
          refine ⟨tokens, table, lastTokens, lastTable, ?_⟩
          intro loads either
          rw [outfits]
          exact outfit_eq_fresh new suit lastTokens lastTable either
  · intro first second afterFirst afterSecond split otherSplit due otherDue
    exact due.unique otherDue split otherSplit
  · intro earlier later split accepted
    exact afterAsking_accepted new polite succeed split accepted

end Sequences

/-- Observers who ask for a run whenever they hear of something, and count the refusals. -/
def insisting :
    String → Event → Conduct (Frame Nat) Unit :=
  fun _ _ =>
    .ask () fun answer =>
      .act
        (fun frame =>
          { frame with world := frame.world + answer.toList.length })
        fun _ => .done

/-- A parser is given an observer, tokens, a table, and then other tokens. -/
def reloading : List Request :=
  [.run, .setUp (.register (.observer "eager")),
    .setUp (.loadTokens (.list [])),
    .setUp (.loadTable (.table Grammar.Single.table)),
    .setUp (.loadTokens (.list [.token (.ofKind "a"), .token .endOfInput]))]

/-- A new verbose parser whose observers have not been refused anything yet. -/
def unrefused : Frame Nat :=
  ⟨.create .none true, .empty, [], 0⟩

theorem reloading_due :
    Request.Due reloading where
  complete := ⟨⟨.list [], by simp [reloading]⟩, _, by simp [reloading]; rfl⟩
  first := by
    intro sooner between split
    simp only [reloading, List.cons_eq_append_iff, List.cons.injEq, true_and,
      reduceCtorEq, false_and, and_false, List.nil_eq,
      List.append_eq_nil_iff, exists_const, or_self, or_false] at split
    rw [split.1]
    simp [Request.Complete]

/-- An observer that takes any symbol table. -/
def takes : Receive Nat :=
  fun _ _ => pure ()

theorem reloading_succeeds
    (earlier : List Request)
    (asked : SetUp)
    (later : List Request)
    (split : reloading ++ [.run, .run] = earlier ++ .setUp asked :: later) :
    ∃ after,
      setUp takes asked (afterAsking takes insisting 4 0 earlier unrefused) =
        .ok () after := by
  simp only [reloading, List.cons_append, List.nil_append,
    List.cons_eq_append_iff, List.cons.injEq, reduceCtorEq, false_and,
    and_false, Request.setUp.injEq, List.nil_eq, List.append_eq_nil_iff,
    exists_const, or_self, or_false, false_or] at split
  obtain
    ⟨_, rfl, ⟨rfl, rfl, rfl⟩ | ⟨_, rfl, ⟨rfl, rfl, rfl⟩ |
      ⟨_, rfl, ⟨rfl, rfl, rfl⟩ | ⟨_, rfl, rfl, rfl, rfl⟩⟩⟩⟩ := split
  · exact ⟨_, rfl⟩
  · exact ⟨_, rfl⟩
  · exact ⟨_, rfl⟩
  · exact ⟨_, rfl⟩

/--
A run that is asked for at once is refused; the one after the loaders takes its course
though its observers insist on another one; and a third run is refused again.
-/
theorem runs_once_insisting :
    start (attending insisting 4 1) 4
        (afterAsking takes insisting 4 0 [] unrefused) =
      .error (.fault .notLoaded) unrefused ∧
    start (attending insisting 4 1) 4
        (afterAsking takes insisting 4 0 reloading unrefused) =
      start (refusing insisting) 4
        (afterAsking takes insisting 4 0 reloading unrefused) ∧
    tryAll (setUp takes)
        [.register (.observer "eager"),
          .loadTable (.table Grammar.Single.table),
          .loadTokens
            (.list [.token (.ofKind "a"), .token .endOfInput])]
        unrefused =
      afterAsking takes insisting 4 0 reloading unrefused ∧
    start (attending insisting 4 1) 4
        (afterAsking takes insisting 4 0 (reloading ++ [.run]) unrefused) =
      .error (.fault .alreadyRan)
        (afterAsking takes insisting 4 0 (reloading ++ [.run]) unrefused) := by
  have new : unrefused.parser = .create .none true := rfl
  have polite :
      ∀ name event,
        (insisting name event).Respects fun before after =>
          after.parser = before.parser :=
    fun _ _ _ _ => ⟨rfl, trivial⟩
  obtain ⟨each, _, _⟩ := runs_once_by_last_loads new polite reloading_succeeds
  obtain ⟨early, _, _⟩ := each [] _ rfl
  obtain ⟨_, _, onTime⟩ := each reloading _ rfl
  obtain ⟨_, late, _⟩ := each (reloading ++ [.run]) [] (by simp)
  obtain ⟨_, refused, _, tokens, table, lastTokens, lastTable, fresh⟩ :=
    onTime reloading_due
  cases lastTokens
  cases lastTable
  have verbose :
      (afterAsking takes insisting 4 0 reloading unrefused).parser.verbose =
        true := rfl
  rw [verbose] at fresh
  refine ⟨early (by simp [Request.Complete]), refused, ?_, ?_⟩
  · exact fresh _ (.inr rfl)
  · refine late (reloading_due.complete.append _) fun due => ?_
    exact due.first reloading [] rfl reloading_due.complete

end Run

end ShiftReduce
