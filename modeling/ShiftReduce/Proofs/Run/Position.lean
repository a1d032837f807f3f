import ShiftReduce.Proofs.Run.Course

namespace ShiftReduce.Run

/-!
# Listeners in their order

The listeners of a registry are told of an event one after the other.  A notification
comes to the listener at a position once all that stand before it have returned
(`TellsAt`).  So a listener that fails is the last one to be told, and a notification
that comes to its end has come to everyone.
-/

/-- Telling listeners of an event comes to the one at a position, in a certain frame. -/
inductive TellsAt
    {ω : Type}
    (deliver : Deliver ω)
    (event : Event) :
    List Listener → Frame ω → Nat → Listener → Frame ω → Prop where
  | now
      {listener : Listener}
      {rest : List Listener}
      {frame : Frame ω} :
      TellsAt deliver event (listener :: rest) frame 0 listener frame
  | later
      {first listener : Listener}
      {rest : List Listener}
      {frame next moment : Frame ω}
      {position : Nat}
      (told : first.tell deliver event frame = .ok () next)
      (tells : TellsAt deliver event rest next position listener moment) :
      TellsAt deliver event (first :: rest) frame (position + 1) listener
        moment

variable
  {ω : Type}
  {deliver : Deliver ω}
  {event : Event}
  {listeners : List Listener}
  {frame : Frame ω}

namespace TellsAt

variable
  {position : Nat}
  {listener : Listener}
  {moment : Frame ω}

theorem tells
    {name : String}
    (tellsAt :
      TellsAt deliver event listeners frame position listener moment)
    (named : listener = .observer name) :
    Tells deliver event listeners frame name moment := by
  induction tellsAt with
  | now =>
      subst named
      exact .now
  | later told _ inductionHypothesis =>
      exact .later told (inductionHypothesis named)

/-- Everyone who stands before a listener that is told has been told. -/
theorem earlier
    {place : Nat}
    {other : Listener}
    (tellsAt :
      TellsAt deliver event listeners frame position listener moment)
    (precedes : place ≤ position)
    (listed : listeners[place]? = some other) :
    ∃ otherMoment,
      TellsAt deliver event listeners frame place other otherMoment := by
  induction tellsAt generalizing place with
  | now =>
      cases Nat.le_zero.mp precedes
      cases listed
      exact ⟨_, .now⟩
  | later told _ inductionHypothesis =>
      cases place with
      | zero =>
          cases listed
          exact ⟨_, .now⟩
      | succ place =>
          obtain ⟨otherMoment, tellsOther⟩ :=
            inductionHypothesis (Nat.le_of_succ_le_succ precedes) listed
          exact ⟨otherMoment, .later told tellsOther⟩

/-- Whoever is told is on the list. -/
theorem listed
    (tellsAt :
      TellsAt deliver event listeners frame position listener moment) :
    listeners[position]? = some listener := by
  induction tellsAt with
  | now => rfl
  | later _ _ inductionHypothesis => exact inductionHypothesis

/-- The one at a position is told once only. -/
theorem unique
    {other : Listener}
    {otherMoment : Frame ω}
    (tellsAt :
      TellsAt deliver event listeners frame position listener moment)
    (tellsOther :
      TellsAt deliver event listeners frame position other otherMoment) :
    listener = other ∧ moment = otherMoment := by
  induction tellsAt with
  | now =>
      cases tellsOther with
      | now => exact ⟨rfl, rfl⟩
  | later told _ inductionHypothesis =>
      cases tellsOther with
      | later toldAgain tellsLater =>
          rw [told] at toldAgain
          cases toldAgain
          exact inductionHypothesis tellsLater

/-- The next one is told as soon as the one before has returned. -/
theorem next
    {other : Listener}
    {otherMoment : Frame ω}
    (tellsAt :
      TellsAt deliver event listeners frame position listener moment)
    (tellsNext :
      TellsAt deliver event listeners frame (position + 1) other
        otherMoment) :
    listener.tell deliver event moment = .ok () otherMoment := by
  induction tellsAt with
  | now =>
      cases tellsNext with
      | later told tells =>
          cases tells with
          | now => exact told
  | later told _ inductionHypothesis =>
      cases tellsNext with
      | later toldAgain tellsLater =>
          rw [told] at toldAgain
          cases toldAgain
          exact inductionHypothesis tellsLater

variable
  {halt : Halt}
  {raised : Frame ω}

/-- A listener that fails ends the notification. -/
theorem interrupts
    (tellsAt :
      TellsAt deliver event listeners frame position listener moment)
    (fails : listener.tell deliver event moment = .error halt raised) :
    Listener.tellAll deliver event listeners frame = .error halt raised := by
  induction tellsAt with
  | now => exact bind_of_error fails
  | later told _ inductionHypothesis =>
      exact (bind_of_ok told).trans (inductionHypothesis fails)

/-- Whoever is told in a notification that comes to its end is an observer. -/
theorem observer
    {told : Frame ω}
    (tellsAt :
      TellsAt deliver event listeners frame position listener moment)
    (ends : Listener.tellAll deliver event listeners frame = .ok () told) :
    ∃ name, listener = .observer name := by
  cases listener with
  | observer name => exact ⟨name, rfl⟩
  | stranger value =>
      rw [tellsAt.interrupts rfl] at ends
      cases ends

/-- Nobody who stands after a listener that fails is told. -/
theorem last_told
    {place : Nat}
    {other : Listener}
    {otherMoment : Frame ω}
    (tellsAt :
      TellsAt deliver event listeners frame position listener moment)
    (fails : listener.tell deliver event moment = .error halt raised)
    (tellsOther :
      TellsAt deliver event listeners frame place other otherMoment) :
    place ≤ position := by
  induction tellsAt generalizing place with
  | now =>
      cases tellsOther with
      | now => exact Nat.le_refl 0
      | later told _ =>
          rw [fails] at told
          cases told
  | later told _ inductionHypothesis =>
      cases tellsOther with
      | now => exact Nat.zero_le _
      | later toldAgain tellsLater =>
          rw [told] at toldAgain
          cases toldAgain
          exact Nat.succ_le_succ (inductionHypothesis fails tellsLater)

end TellsAt

/-- A notification that comes to its end has come to everyone. -/
theorem tellsAt_of_ok
    {position : Nat}
    {listener : Listener}
    {told : Frame ω}
    (ends : Listener.tellAll deliver event listeners frame = .ok () told)
    (listed : listeners[position]? = some listener) :
    ∃ moment,
      TellsAt deliver event listeners frame position listener moment := by
  induction listeners generalizing frame position with
  | nil => cases listed
  | cons first rest inductionHypothesis =>
      cases position with
      | zero =>
          cases listed
          exact ⟨frame, .now⟩
      | succ position =>
          change
            (first.tell deliver event >>= fun _ =>
              Listener.tellAll deliver event rest) frame =
              .ok () told at ends
          cases toldFirst : first.tell deliver event frame with
          | error halt raised =>
              rw [bind_of_error toldFirst] at ends
              cases ends
          | ok result next =>
              rw [bind_of_ok toldFirst] at ends
              obtain ⟨moment, tellsAt⟩ := inductionHypothesis ends listed
              exact ⟨moment, .later toldFirst tellsAt⟩

end ShiftReduce.Run
