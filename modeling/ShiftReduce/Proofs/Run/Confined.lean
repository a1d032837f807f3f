import ShiftReduce.Proofs.Run.Record

namespace ShiftReduce.Run

/-!
# Observers that keep to their own world

Most observers take down what they hear and touch nothing else.  Such observers
disturb no parse, nor do they change the store or the registry; and if each of them
returns, all notifications of a run come to their end.
-/

variable
  {ω : Type}
  {deliver : Deliver ω}
  {table : Value}
  {start : Frame ω}

/-- No callback of a run changes anything but the world of the observers. -/
def Confined
    (deliver : Deliver ω)
    (table : Value)
    (start : Frame ω) :
    Prop :=
  ∀ name event moment,
    Callback deliver table start name event moment →
      ∃ world,
        frameAfter (deliver name event) moment =
          { moment with world := world }

namespace Confined

theorem undisturbed
    (confined : Confined deliver table start) :
    Undisturbed deliver table start := by
  intro name event moment callback
  obtain ⟨world, same⟩ := confined name event moment callback
  rw [same]
  exact ⟨rfl, rfl⟩

theorem store_eq
    (confined : Confined deliver table start)
    {name : String}
    {event : Event}
    {moment : Frame ω}
    (callback : Callback deliver table start name event moment) :
    (frameAfter (deliver name event) moment).store = moment.store := by
  obtain ⟨world, same⟩ := confined name event moment callback
  rw [same]

theorem registry_eq
    (confined : Confined deliver table start)
    {name : String}
    {event : Event}
    {moment : Frame ω}
    (callback : Callback deliver table start name event moment) :
    (frameAfter (deliver name event) moment).parser.registry =
      moment.parser.registry := by
  obtain ⟨world, same⟩ := confined name event moment callback
  rw [same]

/-- The registry of a run is the one that it began with. -/
theorem reaches_registry
    (confined : Confined deliver table start)
    {frame : Frame ω}
    (reaches : Reaches deliver table start frame) :
    frame.parser.registry = start.parser.registry :=
  reaches.relates
    (fun earlier later => later.parser.registry = earlier.parser.registry)
    (fun _ => rfl)
    (fun first second => second.trans first)
    (fun prints => congrArg Parser.registry prints.parser)
    (fun committed => (Parser.commit_keeps committed).registry)
    (fun _ _ _ => confined.registry_eq)

end Confined

/-- Telling observers that return comes to its end. -/
theorem tellAll_ends
    {event : Event}
    {listeners : List Listener}
    {frame : Frame ω}
    (observers : ∀ listener ∈ listeners, ∃ name, listener = .observer name)
    (returns :
      ∀ name moment,
        Tells deliver event listeners frame name moment →
          ∃ after, deliver name event moment = .ok () after) :
    ∃ told, Listener.tellAll deliver event listeners frame = .ok () told := by
  induction listeners generalizing frame with
  | nil =>
      exact ⟨frame, rfl⟩
  | cons listener rest inductionHypothesis =>
      obtain ⟨name, rfl⟩ := observers listener List.mem_cons_self
      obtain ⟨after, told⟩ := returns name frame .now
      obtain ⟨last, toldRest⟩ :=
        inductionHypothesis
          (fun other member =>
            observers other (List.mem_cons_of_mem _ member))
          (fun other moment tells => returns other moment (.later told tells))
      refine ⟨last, ?_⟩
      rw [← toldRest]
      exact bind_of_ok told

/-- Where all listeners are observers that return, notifications come to their end. -/
theorem Confined.notificationsEnd
    (confined : Confined deliver table start)
    (observers :
      ∀ listener ∈ start.parser.registry.listeners,
        ∃ name, listener = .observer name)
    (returns :
      ∀ name event moment,
        Callback deliver table start name event moment →
          ∃ after, deliver name event moment = .ok () after) :
    NotificationsEnd deliver table start := by
  intro before decision shown reaches decides
  apply tellAll_ends
  · rw [decides.printsTo.parser, confined.reaches_registry reaches]
    exact observers
  · intro name moment tells
    exact returns name decision.event moment (.intro reaches decides tells)

/-- One observer takes down every event that it hears; others pay no attention. -/
def logging
    (observer : String) :
    Deliver (List Event) :=
  fun name event =>
    if name = observer then
      modify fun frame => { frame with world := frame.world ++ [event] }
    else
      pure ()

section Logging

variable
  (observer : String)
  (table : Value)
  (start : Frame (List Event))

theorem logging_ok
    (name : String)
    (event : Event)
    (frame : Frame (List Event)) :
    logging observer name event frame =
      .ok ()
        { frame with
          world :=
            if name = observer then frame.world ++ [event]
            else frame.world } := by
  unfold logging
  split
  · rfl
  · rfl

theorem logging_confined :
    Confined (logging observer) table start := by
  intro name event moment _
  exact ⟨_, frameAfter_of_ok (logging_ok observer name event moment)⟩

/-- What is logged is a record of all events. -/
theorem logging_records
    (listed :
      Listener.timesAmong observer start.parser.registry.listeners = 1) :
    Records (logging observer) table start observer (fun event => [event]) id where
  listed := listed
  stays := by
    intro name event moment callback
    rw [(logging_confined observer table start).registry_eq callback]
  own := by
    intro event moment _
    rw [frameAfter_of_ok (logging_ok observer observer event moment)]
    simp
  others := by
    intro name event moment isOther _
    rw [frameAfter_of_ok (logging_ok observer name event moment)]
    simp [isOther]

theorem logging_notificationsEnd
    (observers :
      ∀ listener ∈ start.parser.registry.listeners,
        ∃ name, listener = .observer name) :
    NotificationsEnd (logging observer) table start :=
  (logging_confined observer table start).notificationsEnd observers
    fun name event moment _ => ⟨_, logging_ok observer name event moment⟩

end Logging

end ShiftReduce.Run
