import ShiftReduce.Proofs.Run.Receipt

namespace ShiftReduce.Run

/-!
# What a run announces

On every turn a parser at work comes to a decision, unless something keeps it from doing
so, and then announces the action to its observers.  `Run.announcements` lists what a
run announces, action by action, each with the frame in which its notification begins.

An announcement is what the run has come to by way of the actions before it
(`Run.getElem?_announcements_iff`).  Where everyone returns and nothing keeps an action
from being carried out, a run has carried out just what it has announced.
-/

variable
  {ω : Type}
  {deliver : Deliver ω}
  {table : Value}
  {start frame shown : Frame ω}
  {decision : Decision}

/-- Consult the table about a lookahead, show what it selected, and come to a decision. -/
def consult
    (table token : Value) :
    Run ω Decision := do
  let current ← parser
  let held ← store
  let selection ← demand (current.select held table token)
  printSelection selection
  demand (current.decision held selection)

/-- An action that a run is about to carry out, and the frame in which observers hear of it. -/
structure Announcement (ω : Type) where
  decision : Decision
  frame : Frame ω

/-- What a parser at work announces next, unless it comes to no decision. -/
def announcement?
    (table : Value)
    (frame : Frame ω) :
    Option (Announcement ω) :=
  match frame.parser.pending with
  | [] => none
  | token :: _ =>
      match consult table token frame with
      | .ok decision shown => some ⟨decision, shown⟩
      | .error .. => none

/-- What a run announces in order, with a number of turns granted. -/
def announcements
    (deliver : Deliver ω)
    (table : Value) :
    Nat → Frame ω → List (Announcement ω)
  | 0, _ => []
  | granted + 1, frame =>
      match announcement? table frame with
      | none => []
      | some announced =>
          announced ::
            match perform deliver announced.decision announced.frame with
            | .ok .running after => announcements deliver table granted after
            | _ => []

/-- The actions that a run comes to in order, with a number of turns granted. -/
def actions
    (deliver : Deliver ω)
    (table : Value)
    (granted : Nat)
    (frame : Frame ω) :
    List Decision :=
  (announcements deliver table granted frame).map Announcement.decision

/-- The events that observers hear of in order, with a number of turns granted. -/
def events
    (deliver : Deliver ω)
    (table : Value)
    (granted : Nat)
    (frame : Frame ω) :
    List Event :=
  (announcements deliver table granted frame).map fun announced =>
    announced.decision.event

/-- Consulting the table, part by part. -/
theorem consult_eq
    (table token : Value)
    (frame : Frame ω) :
    consult table token frame =
      (demand (frame.parser.select frame.store table token) >>= fun selection =>
        printSelection selection >>= fun _ =>
          demand (frame.parser.decision frame.store selection)) frame :=
  rfl

/-- A turn is to come to a decision and to perform it. -/
theorem turn_eq_consult
    (deliver : Deliver ω)
    (table token : Value)
    (frame : Frame ω) :
    turn deliver table token frame =
      (consult table token >>= perform deliver) frame := by
  calc
    turn deliver table token frame =
        (demand (frame.parser.select frame.store table token) >>=
          fun selection =>
            printSelection selection >>= fun _ =>
              demand (frame.parser.decision frame.store selection) >>=
                perform deliver) frame :=
      rfl
    _ =
        ((demand (frame.parser.select frame.store table token) >>=
          fun selection =>
            printSelection selection >>= fun _ =>
              demand (frame.parser.decision frame.store selection)) >>=
          perform deliver) frame := by
      simp only [bind_assoc]
    _ = (consult table token >>= perform deliver) frame :=
      (bind_of_eq (consult_eq table token frame)).symm

theorem demand_printsTo
    {α : Type}
    (answer : Except Fault α)
    (frame : Frame ω) :
    frame.PrintsTo (frameAfter (demand answer) frame) := by
  cases answer with
  | ok result => exact .refl frame
  | error cause => exact .refl frame

/-- Coming to a decision, or to none, changes the trace alone. -/
theorem consult_printsTo
    (table token : Value)
    (frame : Frame ω) :
    frame.PrintsTo (frameAfter (consult table token) frame) := by
  have same :
      frameAfter (consult table token) frame =
        frameAfter
          (demand (frame.parser.select frame.store table token) >>=
            fun selection =>
              printSelection selection >>= fun _ =>
                demand (frame.parser.decision frame.store selection)) frame := by
    simp only [frameAfter, consult_eq]
  rw [same]
  apply frameAfter_bind Frame.PrintsTo .trans (demand_printsTo _ _)
  intro selection first _
  apply
    frameAfter_bind Frame.PrintsTo .trans (printSelection_printsTo selection _)
  intro _ second _
  exact demand_printsTo _ _

/-- What comes of consulting the table is what the parser decides on. -/
theorem consult_ok_iff
    {token : Value}
    {rest : List Value}
    (lookahead : frame.parser.pending = token :: rest) :
    consult table token frame = .ok decision shown ↔
      Decides table frame decision shown := by
  rw [consult_eq]
  constructor
  · intro ends
    cases selected : frame.parser.select frame.store table token with
    | error cause =>
        rw [selected, bind_of_error (demand_error cause frame)] at ends
        cases ends
    | ok selection =>
        rw [selected, bind_of_ok (demand_ok selection frame)] at ends
        cases printed : printSelection selection frame with
        | error halt after =>
            rw [bind_of_error printed] at ends
            cases ends
        | ok result after =>
            rw [bind_of_ok printed] at ends
            cases decided : frame.parser.decision frame.store selection with
            | error cause =>
                rw [decided] at ends
                cases ends
            | ok chosen =>
                rw [decided] at ends
                cases ends
                exact .intro lookahead selected printed decided
  · intro decides
    cases decides with
    | intro queue selected printed decided =>
        rw [lookahead] at queue
        cases queue
        rw [selected, bind_of_ok (demand_ok _ frame), bind_of_ok printed,
          decided]
        rfl

/-- What is announced next is what the parser decides on. -/
theorem announcement?_eq_some_iff :
    announcement? table frame = some ⟨decision, shown⟩ ↔
      Decides table frame decision shown := by
  unfold announcement?
  cases queue : frame.parser.pending with
  | nil =>
      constructor
      · intro announced
        cases announced
      · intro decides
        obtain ⟨token, rest, lookahead⟩ := decides.lookahead
        rw [queue] at lookahead
        cases lookahead
  | cons token rest =>
      rw [← consult_ok_iff queue]
      dsimp only
      cases consult table token frame with
      | ok chosen after => simp
      | error halt after => simp

section Turns

variable
  (deliver : Deliver ω)
  (granted : Nat)

/-- A parser that comes to no decision fails, and has changed its trace at most. -/
theorem drive_of_undecided
    (undecided : announcement? table frame = none) :
    announcements deliver table (granted + 1) frame = [] ∧
      ∃ halt after,
        drive deliver table (granted + 1) frame = .error halt after ∧
          frame.PrintsTo after := by
  refine ⟨by simp only [announcements, undecided], ?_⟩
  cases queue : frame.parser.pending with
  | nil =>
      rw [drive_of_nothing queue]
      cases frame.parser.topState with
      | ok state => exact ⟨_, frame, rfl, .refl frame⟩
      | error cause => exact ⟨_, frame, rfl, .refl frame⟩
  | cons token rest =>
      have prints := consult_printsTo table token frame
      cases consulted : consult table token frame with
      | ok decision shown =>
          rw [consult_ok_iff queue, ← announcement?_eq_some_iff,
            undecided] at consulted
          cases consulted
      | error halt after =>
          rw [frameAfter_of_error consulted] at prints
          rw [drive_of_lookahead queue, turn_eq_consult,
            bind_of_error consulted]
          exact ⟨halt, after, rfl, prints⟩

/-- A parser that comes to a decision announces it and performs it. -/
theorem drive_of_decided
    (decides : Decides table frame decision shown) :
    announcements deliver table (granted + 1) frame =
        ⟨decision, shown⟩ ::
          (match perform deliver decision shown with
          | .ok .running after => announcements deliver table granted after
          | _ => []) ∧
      drive deliver table (granted + 1) frame =
        match perform deliver decision shown with
        | .ok .finished after => .ok () after
        | .ok .running after => drive deliver table granted after
        | .error halt after => .error halt after := by
  constructor
  · have announced := announcement?_eq_some_iff.mpr decides
    simp only [announcements, announced]
  · obtain ⟨token, rest, lookahead⟩ := decides.lookahead
    have turned := drive_of_lookahead lookahead deliver table granted
    rw [decides.turn_eq lookahead] at turned
    exact turned

theorem actions_of_undecided
    (undecided : announcement? table frame = none) :
    actions deliver table (granted + 1) frame = [] := by
  rw [actions, (drive_of_undecided deliver granted undecided).1]
  rfl

theorem actions_of_decided
    (decides : Decides table frame decision shown) :
    actions deliver table (granted + 1) frame =
      decision ::
        match perform deliver decision shown with
        | .ok .running after => actions deliver table granted after
        | _ => [] := by
  rw [actions, (drive_of_decided deliver granted decides).1, List.map_cons]
  cases perform deliver decision shown with
  | error halt after => rfl
  | ok progress after =>
      cases progress with
      | finished => rfl
      | running => rfl

end Turns

/-- A run comes to announce an action once a number of others have been carried out. -/
def Announces
    (deliver : Deliver ω)
    (table : Value)
    (start : Frame ω)
    (number : Nat)
    (decision : Decision)
    (shown : Frame ω) :
    Prop :=
  ∃ decisions before,
    Advances deliver table start decisions before ∧
      decisions.length = number ∧
      Decides table before decision shown

/-- An action before others that a run carries out from there on. -/
theorem Advances.prepend
    {token : Value}
    {rest : List Value}
    {next : Frame ω}
    {decisions : List Decision}
    (lookahead : start.parser.pending = token :: rest)
    (decides : Decides table start decision shown)
    (turned : turn deliver table token start = .ok .running next)
    (advances : Advances deliver table next decisions frame) :
    Advances deliver table start (decision :: decisions) frame := by
  induction advances with
  | none => exact .more .none lookahead decides turned
  | more _ lookahead decides turned inductionHypothesis =>
      exact .more inductionHypothesis lookahead decides turned

/-- A run announces the actions that it carries out, and then goes on from there. -/
theorem Advances.announcements_from
    {decisions : List Decision}
    (advances : Advances deliver table start decisions frame)
    (granted : Nat) :
    ∃ earlier,
      earlier.map Announcement.decision = decisions ∧
        announcements deliver table (decisions.length + granted) start =
          earlier ++ announcements deliver table granted frame := by
  induction advances generalizing granted with
  | none => exact ⟨[], rfl, by rw [List.length_nil, Nat.zero_add]; rfl⟩
  | @more decisions decision _ _ before shown after _ lookahead decides turned
      inductionHypothesis =>
      obtain ⟨earlier, same, announced⟩ := inductionHypothesis (granted + 1)
      rw [decides.turn_eq lookahead] at turned
      refine ⟨earlier ++ [⟨decision, shown⟩], by simp [same], ?_⟩
      rw [List.length_append, List.length_singleton, Nat.add_assoc,
        Nat.add_comm 1, announced, (drive_of_decided deliver _ decides).1, turned]
      simp

/-- The announcements of a run are what it comes to announce, by their numbers. -/
theorem getElem?_announcements_iff
    {granted number : Nat} :
    (announcements deliver table granted start)[number]? =
        some ⟨decision, shown⟩ ↔
      number < granted ∧
        Announces deliver table start number decision shown := by
  constructor
  · intro listed
    induction granted generalizing start number with
    | zero => cases listed
    | succ granted inductionHypothesis =>
        cases next : announcement? table start with
        | none =>
            rw [(drive_of_undecided deliver _ next).1] at listed
            cases listed
        | some announced =>
            have decides := announcement?_eq_some_iff.mp next
            rw [(drive_of_decided deliver _ decides).1] at listed
            cases number with
            | zero =>
                cases listed
                exact ⟨Nat.succ_pos granted, [], start, .none, rfl, decides⟩
            | succ number =>
                rw [List.getElem?_cons_succ] at listed
                cases performed :
                    perform deliver announced.decision announced.frame with
                | error halt after =>
                    rw [performed] at listed
                    cases listed
                | ok progress after =>
                    rw [performed] at listed
                    cases progress with
                    | finished => cases listed
                    | running =>
                        obtain ⟨within, decisions, before, advances, rfl,
                          decidesLater⟩ := inductionHypothesis listed
                        obtain ⟨token, rest, lookahead⟩ := decides.lookahead
                        rw [← decides.turn_eq lookahead] at performed
                        exact ⟨Nat.succ_lt_succ within, _, before,
                          advances.prepend lookahead decides performed, rfl,
                          decidesLater⟩
  · rintro ⟨within, decisions, before, advances, rfl, decides⟩
    obtain ⟨left, rfl⟩ := Nat.exists_eq_add_of_lt within
    obtain ⟨earlier, same, announced⟩ := advances.announcements_from (left + 1)
    have length : earlier.length = decisions.length := by
      rw [← same, List.length_map]
    rw [Nat.add_assoc, announced, (drive_of_decided deliver _ decides).1, ← length,
      List.getElem?_append_right (Nat.le_refl _), Nat.sub_self]
    rfl

/-- With fewer turns granted, a run announces the first of what it announces with more. -/
theorem take_announcements
    {granted number : Nat}
    (fewer : number ≤ granted) :
    (announcements deliver table granted start).take number =
      announcements deliver table number start := by
  apply List.ext_getElem?
  intro place
  rw [Option.ext_iff]
  intro announced
  obtain ⟨decision, shown⟩ := announced
  rw [List.getElem?_take, Option.ite_none_right_eq_some,
    getElem?_announcements_iff,
    getElem?_announcements_iff]
  constructor
  · rintro ⟨within, _, announces⟩
    exact ⟨within, announces⟩
  · rintro ⟨within, announces⟩
    exact ⟨within, Nat.lt_of_lt_of_le within fewer, announces⟩

namespace Announces

variable
  {number : Nat}
  {otherDecision : Decision}
  {otherShown : Frame ω}

/-- There is only one action of a number. -/
theorem unique
    (announces : Announces deliver table start number decision shown)
    (other : Announces deliver table start number otherDecision otherShown) :
    decision = otherDecision ∧ shown = otherShown := by
  obtain ⟨decisions, before, advances, rfl, decides⟩ := announces
  obtain ⟨_, _, otherAdvances, sameNumber, otherDecides⟩ := other
  obtain ⟨_, rfl⟩ := advances.unique otherAdvances sameNumber.symm
  exact decides.unique otherDecides

/-- An action comes only after all actions of smaller numbers, and none accepts. -/
theorem earlier
    {place : Nat}
    (announces : Announces deliver table start number decision shown)
    (precedes : place < number) :
    ∃ earlierDecision earlierShown,
      Announces deliver table start place earlierDecision earlierShown ∧
        earlierDecision.progress = .running := by
  obtain ⟨decisions, _, advances, rfl, _⟩ := announces
  obtain ⟨before, earlierShown, token, rest, after, advancesEarlier, decides,
    lookahead, turned⟩ := advances.action (List.getElem?_eq_getElem precedes)
  refine ⟨_, earlierShown, ⟨_, before, advancesEarlier, ?_, decides⟩, ?_⟩
  · rw [List.length_take]
    omega
  · have ends := turn_turned lookahead deliver table
    rw [turned] at ends
    cases ends with
    | performed performs goesOn =>
        rw [← performs.unique decides]
        exact goesOn.symm

/-- What is announced is decided on in a frame that the run comes through. -/
theorem decided
    (announces : Announces deliver table start number decision shown) :
    ∃ before,
      Reaches deliver table start before ∧
        Decides table before decision shown := by
  obtain ⟨decisions, before, advances, _, decides⟩ := announces
  exact ⟨before, advances.reaches, decides⟩

/-- Whoever is told of the action of a number is told of what is announced. -/
theorem receives_iff
    (announces : Announces deliver table start number decision shown)
    {position : Nat}
    {listener : Listener}
    {event : Event} :
    Receives deliver table start position listener number event ↔
      event = decision.event ∧
        ∃ moment,
          TellsAt deliver event shown.parser.registry.listeners shown position
            listener moment := by
  constructor
  · rintro ⟨decisions, before, decision, shown, moment, advances, number,
      decides, rfl, tellsAt⟩
    obtain ⟨rfl, rfl⟩ := announces.unique ⟨_, _, advances, number, decides⟩
    exact ⟨rfl, moment, tellsAt⟩
  · rintro ⟨rfl, moment, tellsAt⟩
    obtain ⟨decisions, before, advances, number, decides⟩ := announces
    exact ⟨_, _, _, _, moment, advances, number, decides, rfl, tellsAt⟩

/-- Where notifications end, those are told who are registered when a notification begins. -/
theorem receives_iff_listed
    (announces : Announces deliver table start number decision shown)
    (ends : NotificationsEnd deliver table start)
    {position : Nat}
    {listener : Listener}
    {event : Event} :
    Receives deliver table start position listener number event ↔
      shown.parser.registry.listeners[position]? = some listener ∧
        event = decision.event := by
  obtain ⟨before, reaches, decides⟩ := announces.decided
  obtain ⟨told, notified⟩ := ends before decision shown reaches decides
  rw [announces.receives_iff]
  constructor
  · rintro ⟨rfl, moment, tellsAt⟩
    exact ⟨tellsAt.listed, rfl⟩
  · rintro ⟨placed, rfl⟩
    exact ⟨rfl, tellsAt_of_ok notified placed⟩

/-- Of two actions that follow each other, the first has led to the second. -/
theorem successive
    (announces : Announces deliver table start number decision shown)
    (next :
      Announces deliver table start (number + 1) otherDecision otherShown) :
    ∃ before after,
      Reaches deliver table start before ∧
        Decides table before decision shown ∧
        Performs deliver table before decision after ∧
        Decides table after otherDecision otherShown := by
  obtain ⟨decisions, before, advances, rfl, decides⟩ := announces
  obtain ⟨_, after, advancesNext, length, decidesNext⟩ := next
  cases advancesNext with
  | none => cases length
  | @more earlier last _ _ previous _ _ advancesEarlier lookahead decidesLast
      turned =>
      rw [List.length_append, List.length_singleton] at length
      obtain ⟨rfl, rfl⟩ :=
        advancesEarlier.unique advances (Nat.add_right_cancel length)
      obtain ⟨rfl, rfl⟩ := decidesLast.unique decides
      have ends := turn_turned lookahead deliver table
      rw [turned] at ends
      cases ends with
      | performed performs _ =>
          have same := performs.unique decides
          subst same
          exact ⟨previous, after, advancesEarlier.reaches, decides, performs,
            decidesNext⟩

end Announces

/--
What comes of announcements, one after the other, if everyone who is told returns.

Each action is carried out, and only the last may break off.
-/
inductive CarriesOut
    (deliver : Deliver ω)
    (table : Value)
    (start : Frame ω) :
    List (Announcement ω) → Frame ω → Frame ω → Prop where
  | rest
      {before after : Frame ω}
      (prints : before.PrintsTo after) :
      CarriesOut deliver table start [] before after
  | more
      {decision : Decision}
      {announced : List (Announcement ω)}
      {before shown next after : Frame ω}
      (reaches : Reaches deliver table start before)
      (decides : Decides table before decision shown)
      (performs : Performs deliver table before decision next)
      (carriesOut : CarriesOut deliver table start announced next after) :
      CarriesOut deliver table start (⟨decision, shown⟩ :: announced) before
        after
  | broken
      {decision : Decision}
      {before shown told : Frame ω}
      {cause : Fault}
      {parser : Parser}
      (reaches : Reaches deliver table start before)
      (decides : Decides table before decision shown)
      (notified : notify deliver decision.event shown = .ok () told)
      (broken : Parser.commit decision told.parser = .error cause parser) :
      CarriesOut deliver table start [⟨decision, shown⟩] before
        { told with parser := parser }

/-- A run whose notifications come to their end carries out what it announces. -/
theorem drive_carriesOut
    (ends : NotificationsEnd deliver table start)
    (granted : Nat)
    (reaches : Reaches deliver table start frame) :
    CarriesOut deliver table start (announcements deliver table granted frame)
      frame (frameAfter (drive deliver table granted) frame) := by
  induction granted generalizing frame with
  | zero => exact .rest (.refl frame)
  | succ granted inductionHypothesis =>
      cases next : announcement? table frame with
      | none =>
          obtain ⟨nothing, halt, after, ended, prints⟩ :=
            drive_of_undecided deliver granted next
          rw [nothing, frameAfter_of_error ended]
          exact .rest prints
      | some announced =>
          obtain ⟨decision, shown⟩ := announced
          have decides := announcement?_eq_some_iff.mp next
          obtain ⟨announced, driven⟩ :=
            drive_of_decided deliver granted decides
          obtain ⟨told, notified⟩ :=
            ends frame decision shown reaches decides
          cases committed : Parser.commit decision told.parser with
          | error cause parser =>
              rw [perform_of_broken notified committed] at announced driven
              rw [announced, frameAfter_of_error driven]
              exact .broken reaches decides notified committed
          | ok result parser =>
              obtain ⟨after, prints, performed | ⟨halt, unshown⟩⟩ :=
                perform_of_committed notified committed
              · have performs : Performs deliver table frame decision after :=
                  .intro decides notified committed prints
                rw [performed] at announced driven
                cases progress : decision.progress with
                | finished =>
                    rw [progress] at announced driven
                    rw [announced, frameAfter_of_ok driven]
                    exact .more reaches decides performs (.rest (.refl after))
                | running =>
                    rw [progress] at announced driven performed
                    obtain ⟨token, others, lookahead⟩ := decides.lookahead
                    rw [← decides.turn_eq lookahead] at performed
                    have continues :=
                      inductionHypothesis (.turn reaches lookahead performed)
                    rw [announced, frameAfter, driven]
                    exact .more reaches decides performs continues
              · have performs : Performs deliver table frame decision after :=
                  .intro decides notified committed prints
                rw [unshown] at announced driven
                rw [announced, frameAfter_of_error driven]
                exact .more reaches decides performs (.rest (.refl after))

/-- Where notifications come to their end, a record grows by a note of every action. -/
theorem Records.carriesOut
    {β : Type}
    {observer : String}
    {note : Event → List β}
    {record : ω → List β}
    {announced : List (Announcement ω)}
    {after : Frame ω}
    (records : Records deliver table start observer note record)
    (carriesOut : CarriesOut deliver table start announced frame after) :
    record after.world =
      record frame.world ++
        announced.flatMap fun entry => note entry.decision.event := by
  induction carriesOut with
  | rest prints => simp [prints.world]
  | more reaches _ performs _ inductionHypothesis =>
      rw [inductionHypothesis, records.performs reaches performs]
      simp
  | broken reaches decides notified broken =>
      rw [records.notified reaches decides notified]
      simp

end ShiftReduce.Run
