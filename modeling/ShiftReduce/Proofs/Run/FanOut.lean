import Mathlib
import ShiftReduce.Grammar.Single
import ShiftReduce.Proofs.Run.Announcement
import ShiftReduce.Proofs.Run.Confined

namespace ShiftReduce

/-!
# Fanning out to a registry that grows

Observers may register others, or be registered again, in the middle of a notification.
A notification goes to those who were on the registry when it began, in their order, and
everyone registered later is told from the next action on (`Run.fans_out_in_order`).
-/

namespace Frame

variable {ω : Type}

/-- One frame becomes another with further observers at the end of the registry, or none. -/
def Enlists
    (before after : Frame ω) :
    Prop :=
  ∃ names : List String,
    after.parser.registry.listeners =
      before.parser.registry.listeners ++ names.map .observer

theorem Enlists.refl
    (frame : Frame ω) :
    frame.Enlists frame :=
  ⟨[], by simp⟩

theorem Enlists.trans
    {first second third : Frame ω}
    (before : first.Enlists second)
    (after : second.Enlists third) :
    first.Enlists third := by
  obtain ⟨names, grown⟩ := before
  obtain ⟨others, grownAgain⟩ := after
  exact ⟨names ++ others, by simp [grownAgain, grown]⟩

theorem Enlists.listeners
    {before after : Frame ω}
    (enlists : before.Enlists after) :
    before.parser.registry.listeners <+: after.parser.registry.listeners := by
  obtain ⟨names, grown⟩ := enlists
  exact ⟨names.map .observer, grown.symm⟩

theorem PrintsTo.enlists
    {before after : Frame ω}
    (prints : before.PrintsTo after) :
    before.Enlists after :=
  ⟨[], by simp [prints.parser]⟩

end Frame

namespace Run

variable
  {ω : Type}
  {deliver : Deliver ω}
  {table : Value}
  {start before after shown : Frame ω}
  {decision : Decision}

/-- Nobody but observers is on the registry, and each callback returns, with some registered. -/
structure Enlisting
    (deliver : Deliver ω)
    (table : Value)
    (start : Frame ω) :
    Prop where
  observers :
    ∀ listener ∈ start.parser.registry.listeners,
      ∃ name, listener = .observer name
  returns :
    ∀ name event moment,
      Callback deliver table start name event moment →
        ∃ after,
          deliver name event moment = .ok () after ∧ moment.Enlists after

/-- Every callback of a run is entered in a journal, with the observer and the event. -/
def Journals
    (deliver : Deliver ω)
    (table : Value)
    (start : Frame ω)
    (journal : ω → List (Listener × Event)) :
    Prop :=
  ∀ name event moment,
    Callback deliver table start name event moment →
      journal (frameAfter (deliver name event) moment).world =
        journal moment.world ++ [(.observer name, event)]

namespace Enlisting

theorem each
    (enlisting : Enlisting deliver table start)
    (name : String)
    (event : Event)
    (moment : Frame ω)
    (callback : Callback deliver table start name event moment) :
    moment.Enlists (frameAfter (deliver name event) moment) := by
  obtain ⟨after, returned, enlists⟩ :=
    enlisting.returns name event moment callback
  rw [frameAfter_of_ok returned]
  exact enlists

theorem commits
    {told : Frame ω}
    {parser : Parser}
    (committed : Parser.commit decision told.parser = .ok () parser) :
    told.Enlists { told with parser := parser } :=
  ⟨[], by simp [(Parser.commit_keeps committed).registry]⟩

/-- From one action to the next, observers are registered at most. -/
theorem performs
    (enlisting : Enlisting deliver table start)
    (reaches : Reaches deliver table start before)
    (performs : Performs deliver table before decision after) :
    before.Enlists after :=
  performs.relates Frame.Enlists .refl .trans Frame.PrintsTo.enlists commits
    enlisting.each reaches

/-- Nobody but observers is on the registry between any two actions. -/
theorem reaches_observers
    (enlisting : Enlisting deliver table start)
    (reaches : Reaches deliver table start before) :
    ∀ listener ∈ before.parser.registry.listeners,
      ∃ name, listener = .observer name := by
  obtain ⟨names, grown⟩ :=
    reaches.relates Frame.Enlists .refl .trans Frame.PrintsTo.enlists commits
      enlisting.each
  intro listener member
  rw [grown] at member
  rcases List.mem_append.mp member with former | added
  · exact enlisting.observers listener former
  · obtain ⟨name, _, rfl⟩ := List.mem_map.mp added
    exact ⟨name, rfl⟩

theorem notificationsEnd
    (enlisting : Enlisting deliver table start) :
    NotificationsEnd deliver table start := by
  intro before decision shown reaches decides
  apply tellAll_ends
  · rw [decides.printsTo.parser]
    exact enlisting.reaches_observers reaches
  · intro name moment tells
    obtain ⟨after, returned, _⟩ :=
      enlisting.returns name decision.event moment
        (.intro reaches decides tells)
    exact ⟨after, returned⟩

variable
  {number later : Nat}
  {laterDecision : Decision}
  {laterShown : Frame ω}

/-- Whoever is on the registry at one action is there at the next. -/
theorem listeners_next
    (enlisting : Enlisting deliver table start)
    (announces : Announces deliver table start number decision shown)
    (next :
      Announces deliver table start (number + 1) laterDecision laterShown) :
    shown.parser.registry.listeners <+:
      laterShown.parser.registry.listeners := by
  obtain ⟨before, after, reaches, decides, performs, decidesNext⟩ :=
    announces.successive next
  rw [decides.printsTo.parser, decidesNext.printsTo.parser]
  exact (enlisting.performs reaches performs).listeners

/-- Whoever is on the registry at one action is there at all later ones. -/
theorem listeners_later
    (enlisting : Enlisting deliver table start)
    (announces : Announces deliver table start number decision shown)
    (announcesLater :
      Announces deliver table start later laterDecision laterShown)
    (precedes : number ≤ later) :
    shown.parser.registry.listeners <+:
      laterShown.parser.registry.listeners := by
  induction precedes generalizing laterDecision laterShown with
  | refl =>
      obtain ⟨_, rfl⟩ := announces.unique announcesLater
      exact List.prefix_rfl
  | @step middle _ inductionHypothesis =>
      obtain ⟨_, _, announcesMiddle, _⟩ :=
        announcesLater.earlier (Nat.lt_succ_self middle)
      exact (inductionHypothesis announcesMiddle).trans
        (enlisting.listeners_next announcesMiddle announcesLater)

/-- A position that is taken between two actions is told of the second and all that follow. -/
theorem receives_late_iff
    (enlisting : Enlisting deliver table start)
    (announces : Announces deliver table start number decision shown)
    {position : Nat}
    {listener : Listener}
    (unplaced : shown.parser.registry.listeners[position]? = none)
    (placed :
      ∀ nextDecision nextShown,
        Announces deliver table start (number + 1) nextDecision nextShown →
          nextShown.parser.registry.listeners[position]? = some listener)
    (later : Nat)
    (event : Event) :
    Receives deliver table start position listener later event ↔
      number < later ∧
        ∃ laterDecision laterShown,
          Announces deliver table start later laterDecision laterShown ∧
            event = laterDecision.event := by
  constructor
  · intro receives
    have ⟨decisions, before, laterDecision, laterShown, _, advances, length,
      decides, same, tellsAt⟩ := receives
    have announcesLater :
        Announces deliver table start later laterDecision laterShown :=
      ⟨decisions, before, advances, length, decides⟩
    refine ⟨Nat.lt_of_not_le fun early => ?_, laterDecision, laterShown,
      announcesLater, same.symm⟩
    have kept := enlisting.listeners_later announcesLater announces early
    have inside := (List.getElem?_eq_some_iff.mp tellsAt.listed).1
    have outside := List.getElem?_eq_none_iff.mp unplaced
    have shorter := kept.length_le
    omega
  · rintro ⟨follows, laterDecision, laterShown, announcesLater, rfl⟩
    have placedLater :
        laterShown.parser.registry.listeners[position]? = some listener := by
      rcases Nat.lt_or_eq_of_le (Nat.succ_le_of_lt follows) with after | next
      · obtain ⟨_, _, announcesNext, _⟩ := announcesLater.earlier after
        exact Listener.placed_of_prefix
          (enlisting.listeners_later announcesNext announcesLater
            (Nat.le_of_lt after))
          (placed _ _ announcesNext)
      · subst next
        exact placed _ _ announcesLater
    exact (announcesLater.receives_iff_listed enlisting.notificationsEnd).mpr
      ⟨placedLater, rfl⟩

end Enlisting

/-- Once an acceptance is announced, nothing more is. -/
theorem Announces.le_of_accept
    {number later : Nat}
    {state : Value}
    {laterDecision : Decision}
    {laterShown : Frame ω}
    (announces : Announces deliver table start number (.accept state) shown)
    (announcesLater :
      Announces deliver table start later laterDecision laterShown) :
    later ≤ number := by
  apply Nat.le_of_not_lt
  intro follows
  obtain ⟨earlierDecision, _, announcesEarlier, goesOn⟩ :=
    announcesLater.earlier follows
  obtain ⟨rfl, _⟩ := announces.unique announcesEarlier
  cases goesOn

section Journal

variable {journal : ω → List (Listener × Event)}

/-- A notification that comes to its end is entered for each listener, in their order. -/
theorem tellAll_journal
    {event : Event}
    {listeners : List Listener}
    {frame told : Frame ω}
    (each :
      ∀ name moment,
        Tells deliver event listeners frame name moment →
          journal (frameAfter (deliver name event) moment).world =
            journal moment.world ++ [(.observer name, event)])
    (ends : Listener.tellAll deliver event listeners frame = .ok () told) :
    journal told.world =
      journal frame.world ++ listeners.map fun listener => (listener, event) := by
  induction listeners generalizing frame with
  | nil =>
      cases ends
      simp
  | cons listener rest inductionHypothesis =>
      change
        (listener.tell deliver event >>= fun _ =>
          Listener.tellAll deliver event rest) frame = .ok () told at ends
      cases listener with
      | stranger value => cases ends
      | observer name =>
          have entered := each name frame .now
          cases heard : deliver name event frame with
          | error halt raised =>
              have failed :
                  (Listener.observer name).tell deliver event frame =
                    .error halt raised :=
                heard
              rw [bind_of_error failed] at ends
              cases ends
          | ok result next =>
              have told :
                  (Listener.observer name).tell deliver event frame =
                    .ok () next :=
                heard
              rw [bind_of_ok told] at ends
              rw [frameAfter_of_ok heard] at entered
              rw [inductionHypothesis
                (fun name moment tells => each name moment (.later told tells))
                ends, entered]
              simp

/-- What is carried out is entered for each listener of each action, in order. -/
theorem CarriesOut.journal_eq
    {announced : List (Announcement ω)}
    (carriesOut : CarriesOut deliver table start announced before after)
    (journals : Journals deliver table start journal) :
    journal after.world =
      journal before.world ++
        announced.flatMap fun entry =>
          entry.frame.parser.registry.listeners.map fun listener =>
            (listener, entry.decision.event) := by
  have entered :
      ∀ {before decision shown told},
        Reaches deliver table start before →
          Decides table before decision shown →
          notify deliver decision.event shown = .ok () told →
            journal told.world =
              journal before.world ++
                shown.parser.registry.listeners.map fun listener =>
                  (listener, decision.event) := by
    intro before decision shown told reaches decides notified
    rw [← decides.printsTo.world]
    exact tellAll_journal
      (fun name moment tells =>
        journals name decision.event moment (.intro reaches decides tells))
      notified
  induction carriesOut with
  | rest prints => simp [prints.world]
  | more reaches decides performs _ inductionHypothesis =>
      cases performs with
      | intro decidesSame notified committed prints =>
          obtain ⟨_, rfl⟩ := decides.unique decidesSame
          rw [inductionHypothesis, prints.world,
            entered reaches decides notified]
          simp
  | broken reaches decides notified broken =>
      rw [entered reaches decides notified]
      simp

end Journal

/--
An action fans out to those who are registered when its notification begins, in order.

Whoever stands at a position then is told of the action, each as soon as the one before
has returned, and nobody else is told.  The registry begins as it is before the run and
grows at its end only.  So whoever is registered between two actions is told of just those
that follow, and of none after an acceptance.  A journal of all callbacks has one entry
for each position of each of these registries, action by action, and no other.
-/
theorem fans_out_in_order
    {frame : Frame ω}
    (loaded : frame.parser.isLoaded = true)
    (unused : frame.parser.ran = false)
    (held : frame.parser.table = table)
    (enlisting : Enlisting deliver table frame.begun) :
    (∀ number decision shown,
      Announces deliver table frame.begun number decision shown →
        (∀ position listener event,
          Receives deliver table frame.begun position listener number event ↔
            shown.parser.registry.listeners[position]? = some listener ∧
              event = decision.event) ∧
        (∀ position listener other moment otherMoment,
          TellsAt deliver decision.event shown.parser.registry.listeners shown
              position listener moment →
            TellsAt deliver decision.event shown.parser.registry.listeners
                shown (position + 1) other otherMoment →
              listener.tell deliver decision.event moment =
                .ok () otherMoment)) ∧
    (∀ decision shown,
      Announces deliver table frame.begun 0 decision shown →
        shown.parser.registry = frame.parser.registry) ∧
    (∀ number decision shown nextDecision nextShown,
      Announces deliver table frame.begun number decision shown →
        Announces deliver table frame.begun (number + 1) nextDecision
            nextShown →
          shown.parser.registry.listeners <+:
            nextShown.parser.registry.listeners) ∧
    (∀ number decision shown position listener,
      Announces deliver table frame.begun number decision shown →
        shown.parser.registry.listeners[position]? = none →
        (∀ nextDecision nextShown,
          Announces deliver table frame.begun (number + 1) nextDecision
              nextShown →
            nextShown.parser.registry.listeners[position]? = some listener) →
          (∀ later event,
            Receives deliver table frame.begun position listener later event ↔
              number < later ∧
                ∃ laterDecision laterShown,
                  Announces deliver table frame.begun later laterDecision
                      laterShown ∧
                    event = laterDecision.event) ∧
          (∀ state,
            decision = .accept state →
              ∀ later event,
                ¬ Receives deliver table frame.begun position listener later
                    event)) ∧
    (∀ granted (journal : ω → List (Listener × Event)),
      Journals deliver table frame.begun journal →
        journal (frameAfter (Run.start deliver granted) frame).world =
          journal frame.world ++
            (announcements deliver table granted frame.begun).flatMap
              fun announced =>
                announced.frame.parser.registry.listeners.map fun listener =>
                  (listener, announced.decision.event)) := by
  have ends := enlisting.notificationsEnd
  refine ⟨?_, ?_, ?_, ?_, ?_⟩
  · intro number decision shown announces
    exact ⟨fun _ _ _ => announces.receives_iff_listed ends,
      fun _ _ _ _ _ tellsAt tellsNext => tellsAt.next tellsNext⟩
  · rintro decision shown ⟨decisions, before, advances, length, decides⟩
    rw [List.length_eq_zero_iff] at length
    subst length
    obtain ⟨_, rfl⟩ := advances.unique .none rfl
    rw [decides.printsTo.parser]
    rfl
  · intro number decision shown nextDecision nextShown announces next
    exact enlisting.listeners_next announces next
  · intro number decision shown position listener announces unplaced placed
    have receives :=
      enlisting.receives_late_iff announces unplaced placed
    refine ⟨receives, ?_⟩
    rintro state rfl later event received
    obtain ⟨follows, _, _, announcesLater, _⟩ :=
      (receives later event).mp received
    exact Nat.not_le_of_lt follows (announces.le_of_accept announcesLater)
  · intro granted journal journals
    have begins :
        frameAfter (Run.start deliver granted) frame =
          frameAfter (drive deliver table granted) frame.begun := by
      simp only [frameAfter, start_begins loaded unused, held]
    rw [begins, (drive_carriesOut ends granted .start).journal_eq journals]
    rfl

/-- Have observers registered, one after the other. -/
def enlist :
    List String → Run ω Unit
  | [] => pure ()
  | name :: rest => do
      let _ ← operate (Parser.register (.observer name))
      enlist rest

theorem enlist_ok
    (names : List String)
    (frame : Frame ω) :
    ∃ after,
      enlist names frame = .ok () after ∧
        after.world = frame.world ∧
        after.parser.registry.listeners =
          frame.parser.registry.listeners ++ names.map .observer := by
  induction names generalizing frame with
  | nil => exact ⟨frame, rfl, rfl, by simp⟩
  | cons name rest inductionHypothesis =>
      obtain ⟨after, enlisted, sameWorld, grown⟩ :=
        inductionHypothesis
          { frame with
            parser :=
              { frame.parser with
                registry := frame.parser.registry.add (.observer name) } }
      refine ⟨after, enlisted, sameWorld, ?_⟩
      rw [grown]
      simp [Registry.add]

/-- Whom an observer brings along when it hears of an event. -/
def guests :
    String → Event → List String
  | "host", .shift .. => ["guest", "host"]
  | "guest", .reduce .. => ["heir"]
  | _, .accept _ => ["latecomer"]
  | _, _ => []

/-- Observers that enter every event in a journal, and bring others along. -/
def hosting : Deliver (List (Listener × Event)) :=
  fun name event => do
    modify fun frame =>
      { frame with world := frame.world ++ [(.observer name, event)] }
    enlist (guests name event)

theorem hosting_ok
    (name : String)
    (event : Event)
    (moment : Frame (List (Listener × Event))) :
    ∃ after,
      hosting name event moment = .ok () after ∧
        after.world = moment.world ++ [(.observer name, event)] ∧
        moment.Enlists after := by
  obtain ⟨after, enlisted, sameWorld, grown⟩ :=
    enlist_ok (guests name event)
      { moment with world := moment.world ++ [(.observer name, event)] }
  exact ⟨after, enlisted, sameWorld, _, grown⟩

open Grammar in
/-- A parser about to read a letter, with an observer that brings others along. -/
def hosted : Frame (List (Listener × Event)) :=
  (Frame.fresh Single.table ([Token.ofKind "a", .endOfInput].map .token)
    ["host"] []).quiet

open Grammar in
/--
A guest that its host brings along at a shift, and the host itself once more, are told of
the reduction and the acceptance; whoever the guest brings along is told of the latter.
-/
theorem fans_out_to_guests :
    Enlisting hosting (.table Single.table) hosted.begun ∧
      (∀ later event,
        Receives hosting (.table Single.table) hosted.begun 1
            (.observer "guest") later event ↔
          0 < later ∧
            ∃ decision shown,
              Announces hosting (.table Single.table) hosted.begun later
                  decision shown ∧
                event = decision.event) ∧
      (frameAfter (Run.start hosting 3) hosted).world =
        [(.observer "host", .shift (.int 0) (.token (.ofKind "a"))),
          (.observer "host", .reduce (.int 1) (.production Single.letter)),
          (.observer "guest", .reduce (.int 1) (.production Single.letter)),
          (.observer "host", .reduce (.int 1) (.production Single.letter)),
          (.observer "host", .accept (.int 2)),
          (.observer "guest", .accept (.int 2)),
          (.observer "host", .accept (.int 2)),
          (.observer "heir", .accept (.int 2))] := by
  have enlisting : Enlisting hosting (.table Single.table) hosted.begun := by
    constructor
    · intro listener member
      exact ⟨"host", List.mem_singleton.mp member⟩
    · intro name event moment _
      obtain ⟨after, returned, _, enlists⟩ := hosting_ok name event moment
      exact ⟨after, returned, enlists⟩
  have journals :
      Journals hosting (.table Single.table) hosted.begun id := by
    intro name event moment _
    obtain ⟨after, returned, entered, _⟩ := hosting_ok name event moment
    rw [frameAfter_of_ok returned]
    exact entered
  have held : hosted.parser.table = .table Single.table := rfl
  obtain ⟨_, first, _, late, journal⟩ :=
    fans_out_in_order rfl rfl held enlisting
  have shifts :
      (actions hosting (.table Single.table) 1 hosted.begun)[0]? =
        some (.shift (.int 0) (.token (.ofKind "a")) (.int 1)) := by
    cbv
  have seconds :
      ((announcements hosting (.table Single.table) 2 hosted.begun).map
          fun announced =>
            announced.frame.parser.registry.listeners[1]?)[1]? =
        some (some (.observer "guest")) := by
    cbv
  refine ⟨enlisting, ?_, ?_⟩
  · rw [actions, List.getElem?_map, Option.map_eq_some_iff] at shifts
    obtain ⟨⟨decision, shown⟩, listed, _⟩ := shifts
    have announces := (getElem?_announcements_iff.mp listed).2
    refine (late 0 decision shown 1 (.observer "guest") announces ?_ ?_).1
    · rw [first decision shown announces]
      rfl
    · intro nextDecision nextShown next
      have listedNext :=
        getElem?_announcements_iff.mpr ⟨Nat.one_lt_two, next⟩
      rw [List.getElem?_map, listedNext] at seconds
      exact Option.some.inj seconds
  · rw [← id_eq (frameAfter (Run.start hosting 3) hosted).world,
      journal 3 id journals]
    cbv

end Run

end ShiftReduce
