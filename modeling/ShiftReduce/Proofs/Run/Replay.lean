import Mathlib
import ShiftReduce.Grammar.Nullable
import ShiftReduce.Proofs.Parser.Views
import ShiftReduce.Proofs.Run.Announcement
import ShiftReduce.Proofs.Run.Forest
import ShiftReduce.Proofs.Run.Settlement

namespace ShiftReduce

/-!
# Playing notifications back

Observers that only watch are all told the same of every action, and find the parser as it
is before the action.  What they see at one action is what they saw at the action before,
changed as that action says.  So the events of a run, played back from where it began, lead
to where the parser stands when the run is over (`Run.notifications_replay`).
-/

namespace Situation

/-- A parse that can go on: nothing but tokens to come, and the bottom marker on its stack. -/
structure Underway
    (situation : Situation) :
    Prop where
  tokens : situation.HoldsTokens
  filled : situation.symbols ≠ []

theorem Moves.underway
    {decision : Decision}
    {before after : Situation}
    (moves : Moves decision before after)
    (underway : before.Underway) :
    after.Underway := by
  refine ⟨moves.holdsTokens underway.tokens, ?_⟩
  cases moves with
  | shift => exact List.cons_ne_nil _ _
  | reduce headed => exact List.cons_ne_nil _ _
  | accept => exact underway.filled

/-- With proper heads and nothing but tokens, no sanctioned action breaks off. -/
theorem Sanctions.unbroken
    {table : Table}
    {store : Store}
    {situation remaining : Situation}
    {decision : Decision}
    (sanctioned : situation.Sanctions table store decision)
    (proper : table.HasProperHeads)
    (tokens : situation.HoldsTokens) :
    ¬ situation.Remains decision remaining := by
  intro remains
  cases remains with
  | shift noToken =>
      cases sanctioned with
      | shift top lookahead named entry =>
          obtain ⟨token, isToken⟩ := tokens _ (List.mem_of_head? lookahead)
          exact noToken token isToken
  | reduce noHead =>
      obtain ⟨head, headed⟩ := sanctioned.headed proper _ _ _ rfl
      exact noHead head headed

end Situation

/-- A loaded parser with nothing but tokens can go on. -/
theorem Parser.Loaded.underway
    {parser : Parser}
    {table : Table}
    {input : List Token}
    (loaded : parser.Loaded table (input.map Value.token)) :
    parser.situation.Underway where
  tokens := by
    intro value member
    change value ∈ parser.pending at member
    rw [loaded.pending] at member
    obtain ⟨token, _, rfl⟩ := List.mem_map.mp member
    exact ⟨token, rfl⟩
  filled := by
    change parser.symbols ≠ []
    rw [loaded.symbols]
    exact List.cons_ne_nil _ _

namespace Run

variable
  {ω : Type}
  {deliver : Deliver ω}
  {table : Table}
  {start before after shown : Frame ω}
  {decision : Decision}

/-- Observers that keep to their own world leave the store as it was. -/
theorem Confined.reaches_store
    (confined : Confined deliver (.table table) start)
    (reaches : Reaches deliver (.table table) start before) :
    before.store = start.store :=
  reaches.relates
    (fun earlier later => later.store = earlier.store)
    (fun _ => rfl)
    (fun first second => second.trans first)
    Frame.PrintsTo.store
    (fun _ => rfl)
    (fun _ _ _ => confined.store_eq)

/-- An action of a run makes of the views what its event says. -/
theorem performs_views
    (confined : Confined deliver (.table table) start)
    (reaches : Reaches deliver (.table table) start before)
    (underway : before.situation.Underway)
    (performs : Performs deliver (.table table) before decision after) :
    before.parser.views.after table start.store decision.event =
        some after.parser.views ∧
      after.situation.Underway := by
  obtain ⟨sanctioned, moves⟩ := confined.undisturbed.moves reaches performs
  rw [confined.reaches_store reaches] at sanctioned
  exact ⟨sanctioned.views_after moves underway.filled,
    moves.underway underway⟩

/-- What is carried out makes of the views what its events say. -/
theorem CarriesOut.replays
    {announced : List (Announcement ω)}
    (carriesOut :
      CarriesOut deliver (.table table) start announced before after)
    (confined : Confined deliver (.table table) start)
    (proper : table.HasProperHeads)
    (underway : before.situation.Underway) :
    before.parser.views.replay table start.store
        (announced.map fun entry => entry.decision.event) =
      some after.parser.views := by
  induction carriesOut with
  | rest prints => rw [prints.parser]; rfl
  | more reaches decides performs _ inductionHypothesis =>
      obtain ⟨changed, next⟩ :=
        performs_views confined reaches underway performs
      rw [← inductionHypothesis next, Views.replay, List.map_cons,
        List.foldlM_cons, changed]
      rfl
  | broken reaches decides notified broken =>
      exact (decides.sanctioned.unbroken proper underway.tokens
        (confined.undisturbed.remains reaches decides notified broken)).elim

/-- Between any two actions, a run of proper heads and tokens can go on. -/
theorem Confined.reaches_underway
    (confined : Confined deliver (.table table) start)
    (initially : start.situation.Underway)
    (reaches : Reaches deliver (.table table) start before) :
    before.situation.Underway :=
  reaches.holds (fun frame => frame.situation.Underway)
    (fun reaches underway performs =>
      (performs_views confined reaches underway performs).2)
    initially

section Announced

variable {number : Nat}

/-- Of an action, everyone on the registry is told, and nobody else. -/
theorem Confined.receives_iff
    (confined : Confined deliver (.table table) start)
    (ends : NotificationsEnd deliver (.table table) start)
    (announces : Announces deliver (.table table) start number decision shown)
    {position : Nat}
    {listener : Listener}
    {event : Event} :
    Receives deliver (.table table) start position listener number event ↔
      start.parser.registry.listeners[position]? = some listener ∧
        event = decision.event := by
  obtain ⟨before, reaches, decides⟩ := announces.decided
  rw [announces.receives_iff_listed ends, decides.printsTo.parser,
    confined.reaches_registry reaches]

/-- Whoever is told of an action sees the parser as it is before the action. -/
theorem Confined.views_told
    (confined : Confined deliver (.table table) start)
    (ends : NotificationsEnd deliver (.table table) start)
    (announces : Announces deliver (.table table) start number decision shown)
    {position : Nat}
    {listener : Listener}
    {moment : Frame ω}
    (tellsAt :
      TellsAt deliver decision.event shown.parser.registry.listeners shown
        position listener moment) :
    moment.parser.views = shown.parser.views := by
  obtain ⟨before, reaches, decides⟩ := announces.decided
  obtain ⟨told, notified⟩ := ends before decision shown reaches decides
  obtain ⟨name, named⟩ := tellsAt.observer notified
  have spares :=
    confined.undisturbed.tells_spares reaches decides (tellsAt.tells named)
  rw [decides.printsTo.parser]
  exact congrArg Situation.views spares.situation

/-- An action is announced only where its event is due. -/
theorem Confined.views_warrant
    (confined : Confined deliver (.table table) start)
    (announces :
      Announces deliver (.table table) start number decision shown) :
    shown.parser.views.Warrants table start.store decision.event := by
  obtain ⟨before, reaches, decides⟩ := announces.decided
  have warranted := decides.sanctioned.warrants
  rw [confined.reaches_store reaches] at warranted
  rw [decides.printsTo.parser]
  exact warranted

end Announced

/--
The notifications of a run show the parser before each action, and replay to where it ends.

Of every action, all that are registered are told the same, and nobody else is.  They all
see the same views, in which the event is due, and which the events before it lead to from
the views at the beginning; the views at the next action are those changed by the event.
Whichever way the run ends, its events lead to the views of the parser at the end, and they
are what an observer has on its record that takes down everything.
-/
theorem notifications_replay
    {input : List Token}
    {frame : Frame ω}
    (loaded : frame.parser.Loaded table (input.map Value.token))
    (unused : frame.parser.ran = false)
    (proper : table.HasProperHeads)
    (confined : Confined deliver (.table table) frame.begun)
    (ends : NotificationsEnd deliver (.table table) frame.begun)
    (granted : Nat) :
    (∀ number decision shown,
      (announcements deliver (.table table) granted frame.begun)[number]? =
          some ⟨decision, shown⟩ →
        (∀ position listener event,
          Receives deliver (.table table) frame.begun position listener number
              event ↔
            frame.parser.registry.listeners[position]? = some listener ∧
              event = decision.event) ∧
        (∀ position listener moment,
          TellsAt deliver decision.event shown.parser.registry.listeners shown
              position listener moment →
            moment.parser.views = shown.parser.views) ∧
        shown.parser.views.Warrants table frame.store decision.event ∧
        frame.parser.views.replay table frame.store
            ((events deliver (.table table) granted frame.begun).take number) =
          some shown.parser.views) ∧
    (∀ number decision shown nextDecision nextShown,
      (announcements deliver (.table table) granted frame.begun)[number]? =
          some ⟨decision, shown⟩ →
        (announcements deliver (.table table) granted
            frame.begun)[number + 1]? =
          some ⟨nextDecision, nextShown⟩ →
          shown.parser.views.after table frame.store decision.event =
            some nextShown.parser.views) ∧
    frame.parser.views.replay table frame.store
        (events deliver (.table table) granted frame.begun) =
      some (frameAfter (Run.start deliver granted) frame).parser.views ∧
    (∀ observer (heard : ω → List Event),
      Records deliver (.table table) frame.begun observer
          (fun event => [event]) heard →
        heard (frameAfter (Run.start deliver granted) frame).world =
          heard frame.world ++
            events deliver (.table table) granted frame.begun) := by
  have initially : frame.begun.situation.Underway := loaded.underway
  have begins :
      frameAfter (Run.start deliver granted) frame =
        frameAfter (drive deliver (.table table) granted) frame.begun := by
    simp only [frameAfter, start_begins loaded.isLoaded unused, loaded.held]
  have carriesOut :
      CarriesOut deliver (.table table) frame.begun
        (announcements deliver (.table table) granted frame.begun) frame.begun
        (frameAfter (drive deliver (.table table) granted) frame.begun) :=
    drive_carriesOut ends granted .start
  refine ⟨?_, ?_, ?_, ?_⟩
  · intro number decision shown listed
    obtain ⟨within, announces⟩ := getElem?_announcements_iff.mp listed
    refine ⟨fun _ _ _ => confined.receives_iff ends announces,
      fun _ _ _ => confined.views_told ends announces,
      confined.views_warrant announces, ?_⟩
    obtain ⟨decisions, before, advances, rfl, decides⟩ := announces
    have reached :
        frameAfter (drive deliver (.table table) decisions.length)
            frame.begun = before := by
      have driven := advances.drive_from 0
      rw [Nat.add_zero] at driven
      rw [frameAfter, driven]
      rfl
    have replayed :=
      (drive_carriesOut ends decisions.length .start).replays confined proper
        initially
    rw [reached] at replayed
    rw [decides.printsTo.parser, events, ← List.map_take,
      take_announcements (Nat.le_of_lt within)]
    exact replayed
  · intro number decision shown nextDecision nextShown listed listedNext
    obtain ⟨_, announces⟩ := getElem?_announcements_iff.mp listed
    obtain ⟨_, announcesNext⟩ := getElem?_announcements_iff.mp listedNext
    obtain ⟨before, after, reaches, decides, performs, decidesNext⟩ :=
      announces.successive announcesNext
    rw [decides.printsTo.parser, decidesNext.printsTo.parser]
    exact (performs_views confined reaches
      (confined.reaches_underway initially reaches) performs).1
  · rw [begins]
    exact carriesOut.replays confined proper initially
  · intro observer heard records
    rw [begins, records.carriesOut carriesOut, events, List.map_eq_flatMap]
    rfl

open Grammar in
/-- A parser about to read a letter, with two observers of which one takes notes. -/
def watched : Frame (List Event) :=
  (Frame.fresh Nullable.table ([Token.ofKind "a", .endOfInput].map .token)
    ["log", "idle"] []).quiet

open Grammar in
/-- Two observers of a letter hear the same of its shift, and what they hear replays. -/
theorem notifications_replay_nullable :
    Nullable.table.HasProperHeads ∧
      (∀ position listener event,
        Receives (logging "log") (.table Nullable.table) watched.begun position
            listener 1 event ↔
          watched.parser.registry.listeners[position]? = some listener ∧
            event = .shift (.int 1) (.token (.ofKind "a"))) ∧
      watched.parser.views.replay Nullable.table watched.store
          [.reduce (.int 0) (.production Nullable.nothing),
            .shift (.int 1) (.token (.ofKind "a")),
            .reduce (.int 2) (.production Nullable.sentence),
            .accept (.int 3)] =
        some
          ⟨[.int 0, .int 3], [.nonterminal Nullable.start],
            [.token .endOfInput]⟩ := by
  have proper : Nullable.table.HasProperHeads := by
    decide
  have loaded :
      watched.parser.Loaded Nullable.table
        ([Token.ofKind "a", .endOfInput].map .token) :=
    ⟨rfl, rfl, rfl, rfl⟩
  have observers :
      ∀ listener ∈ watched.begun.parser.registry.listeners,
        ∃ name, listener = .observer name := by
    intro listener member
    obtain ⟨name, _, rfl⟩ := List.mem_map.mp member
    exact ⟨name, rfl⟩
  have heard :
      events (logging "log") (.table Nullable.table) 4 watched.begun =
        [.reduce (.int 0) (.production Nullable.nothing),
          .shift (.int 1) (.token (.ofKind "a")),
          .reduce (.int 2) (.production Nullable.sentence),
          .accept (.int 3)] := by
    cbv
  have ended :
      (frameAfter (Run.start (logging "log") 4) watched).parser.views =
        ⟨[.int 0, .int 3], [.nonterminal Nullable.start],
          [.token .endOfInput]⟩ := by
    cbv
  obtain ⟨each, _, replays, _⟩ :=
    notifications_replay loaded rfl proper
      (logging_confined "log" _ watched.begun)
      (logging_notificationsEnd "log" _ _ observers) 4
  rw [heard, ended] at replays
  refine ⟨proper, ?_, replays⟩
  have second :
      (events (logging "log") (.table Nullable.table) 4 watched.begun)[1]? =
        some (.shift (.int 1) (.token (.ofKind "a"))) := by
    rw [heard]
    rfl
  rw [events, List.getElem?_map, Option.map_eq_some_iff] at second
  obtain ⟨⟨decision, shown⟩, announced, told⟩ := second
  rw [← told]
  exact (each 1 decision shown announced).1

end Run

end ShiftReduce
