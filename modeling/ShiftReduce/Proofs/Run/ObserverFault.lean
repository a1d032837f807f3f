import ShiftReduce.Grammar.Single
import ShiftReduce.Proofs.Run.Confined
import ShiftReduce.Proofs.Run.Receipt

namespace ShiftReduce

/-!
# Faults of observers

A listener that fails when it is told of an action ends the run with its own failure,
before anything of the action is done (`Run.fault_leaves_parse`).  Those that stand
before it, and itself, have been told of the action, those after it have not; and the
parser never runs again, whatever is done with it (`Parser.Becomes`).
-/

namespace Parser

/-- What an operation makes of a parser, whether it fails or not. -/
def afterwards
    {α : Type}
    (operation : Operation α)
    (parser : Parser) :
    Parser :=
  match operation parser with
  | .ok _ after => after
  | .error _ after => after

/-- What can become of a parser from outside, apart from running it. -/
inductive Becomes
    (parser : Parser) :
    Parser → Prop where
  | same :
      Becomes parser parser
  | loadTokens
      {before : Parser}
      (becomes : Becomes parser before)
      (store : Store)
      (tokens : Value) :
      Becomes parser (before.afterwards (Parser.loadTokens store tokens))
  | loadTable
      {before : Parser}
      (becomes : Becomes parser before)
      (table : Value) :
      Becomes parser (before.afterwards (Parser.loadTable table))
  | register
      {before : Parser}
      (becomes : Becomes parser before)
      (listener : Listener) :
      Becomes parser (before.afterwards (Parser.register listener))
  | setVerbose
      {before : Parser}
      (becomes : Becomes parser before)
      (verbose : Bool) :
      Becomes parser { before with verbose := verbose }

/-- Nothing makes a parser forget that it has run. -/
theorem Becomes.ran
    {parser later : Parser}
    (becomes : parser.Becomes later) :
    later.ran = parser.ran := by
  induction becomes with
  | same => rfl
  | @loadTokens before _ store tokens inductionHypothesis =>
      rw [← inductionHypothesis]
      unfold afterwards Parser.loadTokens
      cases store.members tokens with
      | ok members => rfl
      | error cause => rfl
  | loadTable _ table inductionHypothesis =>
      rw [← inductionHypothesis]
      cases table with
      | _ => rfl
  | register _ listener inductionHypothesis =>
      rw [← inductionHypothesis]
      cases listener with
      | observer name => rfl
      | stranger value => rfl
  | setVerbose _ verbose inductionHypothesis => exact inductionHypothesis

end Parser

namespace Run

variable
  {ω : Type}
  {deliver : Deliver ω}

/--
The listener at a position fails when it is told of an action, with the actions before
that one carried out and everyone before that listener told.
-/
inductive Fails
    (deliver : Deliver ω)
    (table : Value)
    (start : Frame ω) :
    List Decision → Decision → Nat → Halt → Frame ω → Frame ω → Prop where
  | intro
      {decisions : List Decision}
      {decision : Decision}
      {position : Nat}
      {listener : Listener}
      {halt : Halt}
      {before shown moment raised : Frame ω}
      (advances : Advances deliver table start decisions before)
      (decides : Decides table before decision shown)
      (tellsAt :
        TellsAt deliver decision.event shown.parser.registry.listeners shown
          position listener moment)
      (fails : listener.tell deliver decision.event moment = .error halt raised) :
      Fails deliver table start decisions decision position halt before raised

namespace Fails

variable
  {table : Value}
  {start before raised : Frame ω}
  {decisions : List Decision}
  {decision : Decision}
  {position : Nat}
  {halt : Halt}

/-- The failure of a listener ends the notification. -/
theorem notify_fails
    (failure :
      Fails deliver table start decisions decision position halt before raised) :
    ∃ shown,
      Advances deliver table start decisions before ∧
        Decides table before decision shown ∧
        notify deliver decision.event shown = .error halt raised := by
  cases failure with
  | intro advances decides tellsAt fails =>
      exact ⟨_, advances, decides, tellsAt.interrupts fails⟩

/-- The failure of a listener ends the turn. -/
theorem turn_fails
    (failure :
      Fails deliver table start decisions decision position halt before raised) :
    ∃ token rest,
      before.parser.pending = token :: rest ∧
        turn deliver table token before = .error halt raised := by
  obtain ⟨shown, _, decides, interrupted⟩ := failure.notify_fails
  obtain ⟨token, rest, lookahead⟩ := decides.lookahead
  refine ⟨token, rest, lookahead, ?_⟩
  rw [decides.turn_eq lookahead deliver]
  exact bind_of_error interrupted

/-- The failure of a listener ends the run. -/
theorem drive_fails
    {granted : Nat}
    (failure :
      Fails deliver table start decisions decision position halt before raised)
    (enough : decisions.length < granted) :
    drive deliver table granted start = .error halt raised := by
  obtain ⟨left, rfl⟩ := Nat.exists_eq_add_of_lt enough
  obtain ⟨_, advances, _⟩ := failure.notify_fails
  obtain ⟨token, rest, lookahead, ends⟩ := failure.turn_fails
  rw [Nat.add_assoc, advances.drive_from, drive_of_lookahead lookahead, ends]

/-- Of all that the parse depends on, the failure of a listener has changed nothing. -/
theorem spares
    {loadedTable : Table}
    (failure :
      Fails deliver (.table loadedTable) start decisions decision position halt
        before raised)
    (undisturbed : Undisturbed deliver (.table loadedTable) start) :
    before.Spares raised := by
  obtain ⟨_, advances, decides, interrupted⟩ := failure.notify_fails
  have spares := undisturbed.notify_spares advances.reaches decides
  rwa [frameAfter_of_error interrupted] at spares

theorem retains
    (failure :
      Fails deliver table start decisions decision position halt before raised)
    (keeps : KeepsLoaded deliver table start) :
    start.Retains raised := by
  obtain ⟨_, advances, decides, interrupted⟩ := failure.notify_fails
  have retains := keeps.notify_retains advances.reaches decides
  rw [frameAfter_of_error interrupted] at retains
  exact (keeps.reaches_retains advances.reaches).trans retains

/-- No run advances beyond an action that a listener fails at. -/
theorem last_action
    {otherDecisions : List Decision}
    {otherFrame : Frame ω}
    (failure :
      Fails deliver table start decisions decision position halt before raised)
    (other : Advances deliver table start otherDecisions otherFrame) :
    otherDecisions.length ≤ decisions.length := by
  apply Nat.le_of_not_lt
  intro beyond
  obtain ⟨_, advances, _⟩ := failure.notify_fails
  obtain ⟨_, _, lookahead, ends⟩ := failure.turn_fails
  -- A longer run would have come through the same frame, and have got past it.
  obtain ⟨_, _, _, _, _, advancesEarlier, _, lookaheadAgain, turned⟩ :=
    other.action (List.getElem?_eq_getElem beyond)
  obtain ⟨_, rfl⟩ :=
    advances.unique advancesEarlier (by rw [List.length_take]; omega)
  rw [lookahead] at lookaheadAgain
  cases lookaheadAgain
  rw [ends] at turned
  cases turned

/-- Whatever anyone has been told of is one of the actions up to the one that failed. -/
theorem told_of
    {place number : Nat}
    {listener : Listener}
    {event : Event}
    (failure :
      Fails deliver table start decisions decision position halt before raised)
    (received : Receives deliver table start place listener number event) :
    ((decisions ++ [decision]).map Decision.event)[number]? = some event ∧
      (number = decisions.length → place ≤ position) := by
  obtain ⟨others, _, otherDecision, _, _, other, rfl, otherDecides, rfl,
    tellsOther⟩ := received
  rw [List.getElem?_map, Option.map_eq_some_iff]
  have bounded := failure.last_action other
  cases failure with
  | intro advances decides tellsAt fails =>
      by_cases earlier : others.length < decisions.length
      · obtain ⟨_, _, _, _, _, advancesEarlier, decidesEarlier, _⟩ :=
          advances.action (List.getElem?_eq_getElem earlier)
        obtain ⟨_, rfl⟩ :=
          other.unique advancesEarlier (by rw [List.length_take]; omega)
        obtain ⟨rfl, _⟩ := otherDecides.unique decidesEarlier
        refine ⟨⟨_, ?_, rfl⟩, fun same => absurd same (Nat.ne_of_lt earlier)⟩
        rw [List.getElem?_append_left earlier, List.getElem?_eq_getElem earlier]
      · obtain ⟨rfl, rfl⟩ := other.unique advances (by omega)
        obtain ⟨rfl, rfl⟩ := otherDecides.unique decides
        refine ⟨⟨_, List.getElem?_concat_length, rfl⟩, fun _ => ?_⟩
        exact tellsAt.last_told fails tellsOther

/--
Everyone has been told of the actions before the one that a listener fails at, and of
that one only those who do not stand after the listener.
-/
theorem receives_iff
    {place number : Nat}
    {listener : Listener}
    {event : Event}
    (failure :
      Fails deliver table start decisions decision position halt before raised)
    (keeps : KeepsLoaded deliver table start)
    (placed : start.parser.registry.listeners[place]? = some listener) :
    Receives deliver table start place listener number event ↔
      ((decisions ++ [decision]).map Decision.event)[number]? = some event ∧
        (number = decisions.length → place ≤ position) := by
  constructor
  · exact failure.told_of
  · rintro ⟨listed, upTo⟩
    rw [List.getElem?_map] at listed
    obtain ⟨told, isTold, rfl⟩ := Option.map_eq_some_iff.mp listed
    cases failure with
    | intro advances decides tellsAt fails =>
        rcases earlier_or_last isTold with ⟨_, listed⟩ | ⟨rfl, rfl⟩
        · exact advances.receives keeps listed placed
        · have retains :=
            (keeps.reaches_retains advances.reaches).trans
              decides.printsTo.retains
          obtain ⟨moment, tellsOther⟩ :=
            tellsAt.earlier (upTo rfl)
              (Listener.placed_of_prefix retains.listeners placed)
          exact ⟨_, _, _, _, moment, advances, rfl, decides, rfl, tellsOther⟩

end Fails

/--
A listener that fails leaves the parse where the action was decided on.

Let a listener fail when it is told of an action, with all notifications before that
having come to their end, and let no observer load the parser anew.  Then the run ends
with that very failure.  The stacks, the queue and the verdict are as they were before
the action.  Everyone on the registry has been told of the actions before it, and those
up to the listener have been told of it too, but nobody after the listener.  From then
on every run is refused and changes nothing, whatever becomes of the parser.
-/
theorem fault_leaves_parse
    {table : Table}
    {tokens : List Value}
    {frame before raised : Frame ω}
    {decisions : List Decision}
    {decision : Decision}
    {position granted : Nat}
    {halt : Halt}
    (loaded : frame.parser.Loaded table tokens)
    (unused : frame.parser.ran = false)
    (keeps : KeepsLoaded deliver (.table table) frame.begun)
    (failure :
      Fails deliver (.table table) frame.begun decisions decision position halt
        before raised)
    (enough : decisions.length < granted) :
    start deliver granted frame = .error halt raised ∧
    raised.situation = before.situation ∧
    raised.parser.accepted = before.parser.accepted ∧
    (∀ place listener number event,
      frame.parser.registry.listeners[place]? = some listener →
        (Receives deliver (.table table) frame.begun place listener number
            event ↔
          ((decisions ++ [decision]).map Decision.event)[number]? =
              some event ∧
            (number = decisions.length → place ≤ position))) ∧
    (∀ (later : Frame ω) (deliverLater : Deliver ω) (grantedLater : Nat),
      raised.parser.Becomes later.parser →
        ∃ cause,
          start deliverLater grantedLater later =
              .error (.fault cause) later ∧
            cause.category = .runtime) := by
  have spares := failure.spares keeps.undisturbed
  refine ⟨?_, spares.situation, spares.accepted, ?_, ?_⟩
  · rw [start_begins loaded.isLoaded unused, loaded.held]
    exact failure.drive_fails enough
  · intro place listener number event placed
    exact failure.receives_iff keeps placed
  · intro later deliverLater grantedLater becomes
    have ran : later.parser.ran = true :=
      becomes.ran.trans (failure.retains keeps).ran
    rcases start_cases deliverLater grantedLater later with
        ⟨cause, refused, category, _⟩ | ⟨unusedLater, _⟩
    · exact ⟨cause, refused, category⟩
    · rw [ran] at unusedLater
      cases unusedLater

theorem Confined.keepsLoaded
    {table : Value}
    {start : Frame ω}
    (confined : Confined deliver table start) :
    KeepsLoaded deliver table start where
  undisturbed := confined.undisturbed
  retains := by
    intro name event moment callback
    obtain ⟨world, same⟩ := confined name event moment callback
    rw [same]
    exact ⟨rfl, List.prefix_rfl⟩

/-- Observers that take down what they hear; one of them fails when it hears of a reduction. -/
def faltering
    (name : String)
    (event : Event) :
    Run (List (String × Event)) Unit := do
  modify fun frame => { frame with world := frame.world ++ [(name, event)] }
  match event with
  | .reduce .. => if name = "second" then throw (.fault (.observerFailure name))
  | _ => pure ()

theorem faltering_confined
    (table : Value)
    (start : Frame (List (String × Event))) :
    Confined faltering table start := by
  intro name event moment _
  refine ⟨moment.world ++ [(name, event)], ?_⟩
  cases event with
  | shift state token => rfl
  | accept state => rfl
  | reduce state production =>
      unfold faltering
      by_cases fails : name = "second"
      · rw [if_pos fails]
        rfl
      · rw [if_neg fails]
        rfl

open Grammar in
/-- A parser of one letter with three observers, of which the second one falters. -/
def threeObservers : Frame (List (String × Event)) :=
  (Frame.fresh Single.table ([Token.ofKind "a", .endOfInput].map .token)
    ["first", "second", "third"] []).quiet

open Grammar in
/-- The second of three observers fails at a reduction, of which the third never hears. -/
theorem fault_of_second_observer :
    ∃ raised,
      start faltering 2 threeObservers =
          .error (.fault (.observerFailure "second")) raised ∧
        raised.situation =
          ⟨[.int 1, .int 0], [.token (.ofKind "a"), Parser.bottomMarker],
            [.token .endOfInput]⟩ ∧
        raised.world.map Prod.fst =
          ["first", "second", "third", "first", "second"] ∧
        ¬ Receives faltering (.table Single.table) threeObservers.begun 2
            (.observer "third") 1
            (.reduce (.int 1) (.production Single.letter)) ∧
        ∃ cause,
          start faltering 2 raised = .error (.fault cause) raised ∧
            cause.category = .runtime := by
  have advances :
      Advances faltering (.table Single.table) threeObservers.begun
        [.shift (.int 0) (.token (.ofKind "a")) (.int 1)] _ :=
    .more .none rfl (.intro rfl rfl rfl rfl) rfl
  have failure :
      Fails faltering (.table Single.table) threeObservers.begun
        [.shift (.int 0) (.token (.ofKind "a")) (.int 1)]
        (.reduce (.int 1) Single.letter (.int 2)) 1
        (.fault (.observerFailure "second")) _ _ :=
    .intro advances (.intro rfl rfl rfl rfl) (.later rfl .now) rfl
  have leaves :=
    fault_leaves_parse ⟨rfl, rfl, rfl, rfl⟩ rfl
      (faltering_confined (.table Single.table)
        threeObservers.begun).keepsLoaded
      failure (by decide : 1 < 2)
  obtain ⟨ended, situation, _, receives, refused⟩ := leaves
  refine ⟨_, ended, situation, rfl, ?_, refused _ faltering 2 .same⟩
  intro received
  have upTo := (receives 2 (.observer "third") 1 _ rfl).mp received
  exact absurd (upTo.2 rfl) (by decide)

end Run

end ShiftReduce
