import ShiftReduce.Proofs.Machine.Basic
import ShiftReduce.Proofs.Run.Confined
import ShiftReduce.Proofs.Session.Parsers
import ShiftReduce.Session.Perform

namespace ShiftReduce

/-!
# Collectors at work

A collector adds the rule of every reduction that it is told of to its collection,
and does nothing else (`Session.deliver_collector`).  So a run that only a collector
listens to takes its course, and the collection grows by the rules of its events
(`Session.collecting_confined`, `Session.collecting_records`).
-/

namespace Session

/-- One of the observers is a collector, with a collection of rules. -/
def Collects
    (session : Session)
    (collector : String)
    (productions : List Value) :
    Prop :=
  ∃ symbolTable,
    session.observers.lookup collector =
      some ⟨symbolTable, .collector productions⟩

/-- What a collector has collected; other observers have collected nothing. -/
def collection
    (collector : String)
    (session : Session) :
    List Value :=
  match session.observers.lookup collector with
  | some ⟨_, .collector productions⟩ => productions
  | _ => []

theorem Collects.collection_eq
    {session : Session}
    {collector : String}
    {productions : List Value}
    (collects : session.Collects collector productions) :
    session.collection collector = productions := by
  obtain ⟨symbolTable, found⟩ := collects
  simp only [collection, found]

variable
  {collector : String}
  {productions : List Value}
  {perform : Step → Deed Report}

/-- A collector adds the rule of a reduction to its collection, and does nothing else. -/
theorem deliver_collector
    {session : Session}
    (collects : session.Collects collector productions)
    (perform : Step → Deed Report)
    (event : Event) :
    ∃ observers,
      deliver perform collector event session =
          .ok () { session with observers := observers } ∧
        Collects { session with observers := observers } collector
          (productions ++ event.rules) := by
  obtain ⟨symbolTable, found⟩ := collects
  have opened :
      observer collector session =
        .ok ⟨symbolTable, .collector productions⟩ session := by
    have current : (get : Deed Session) session = .ok session session := rfl
    rw [observer, Run.bind_of_ok current, found]
    rfl
  unfold deliver
  rw [Run.bind_of_ok opened]
  cases event with
  | reduce state production =>
      exact ⟨_, rfl, symbolTable, Directory.lookup_put ..⟩
  | shift state token =>
      exact ⟨_, rfl, symbolTable, by simpa [Event.rules] using found⟩
  | accept state =>
      exact ⟨_, rfl, symbolTable, by simpa [Event.rules] using found⟩

/-- How events reach observers while one of the parsers is at work. -/
def delivery
    (perform : Step → Deed Report)
    (name : String) :
    Deliver Session :=
  fun listener event => duringRun name (deliver perform listener event)

/-- A collector that hears of an event in the middle of a run leaves the run alone. -/
theorem delivery_collector
    {frame : Frame Session}
    (collects : frame.world.Collects collector productions)
    (perform : Step → Deed Report)
    (name : String)
    (event : Event) :
    ∃ world,
      delivery perform name collector event frame =
          .ok () { frame with world := world } ∧
        world.Collects collector (productions ++ event.rules) := by
  have held : (ofFrame name frame).Collects collector productions := collects
  obtain ⟨observers, delivered, grown⟩ :=
    deliver_collector held perform event
  refine ⟨{ ofFrame name frame with observers := observers }, ?_, grown⟩
  have resumed :
      Session.frame { ofFrame name frame with observers := observers } name =
        { frame with
          world := { ofFrame name frame with observers := observers } } := by
    simp only [Session.frame, Session.parser, ofFrame, putParser, putStore,
      Directory.lookup_put, Option.getD_some, store]
  simp only [delivery, duringRun, delivered, resumed]

/-- A collector, and nobody else, listens to the parser at work. -/
structure Collecting
    (collector : String)
    (frame : Frame Session) :
    Prop where
  alone : frame.parser.registry.listeners = [.observer collector]
  collects : ∃ productions, frame.world.Collects collector productions

section Runs

variable
  {name : String}
  {table : Value}
  {start frame : Frame Session}

theorem Collecting.prints
    {after : Frame Session}
    (collecting : Collecting collector frame)
    (prints : frame.PrintsTo after) :
    Collecting collector after where
  alone := by
    rw [prints.parser]
    exact collecting.alone
  collects := by
    rw [prints.world]
    exact collecting.collects

theorem Collecting.notify
    (collecting : Collecting collector frame)
    (perform : Step → Deed Report)
    (name : String)
    (event : Event) :
    ∃ world,
      Run.notify (delivery perform name) event frame =
          .ok () { frame with world := world } ∧
        Collecting collector { frame with world := world } := by
  obtain ⟨productions, collects⟩ := collecting.collects
  obtain ⟨world, delivered, grown⟩ :=
    delivery_collector collects perform name event
  refine ⟨world, ?_, collecting.alone, _, grown⟩
  change
    Listener.tellAll (delivery perform name) event
      frame.parser.registry.listeners frame = _
  rw [collecting.alone]
  change
    (delivery perform name collector event >>= fun _ => pure ()) frame = _
  rw [Run.bind_of_ok delivered]
  rfl

theorem Collecting.performs
    {after : Frame Session}
    {decision : Decision}
    (collecting : Collecting collector frame)
    (performs :
      Run.Performs (delivery perform name) table frame decision after) :
    Collecting collector after := by
  cases performs with
  | @intro shown told _ parser decides notified committed prints =>
      obtain ⟨world, ended, kept⟩ :=
        (collecting.prints decides.printsTo).notify perform name decision.event
      rw [ended] at notified
      cases notified
      have registry := (Parser.commit_keeps committed).registry
      have carriedOut :
          Collecting collector
            { shown with parser := parser, world := world } :=
        ⟨(congrArg Registry.listeners registry).trans kept.alone,
          kept.collects⟩
      exact carriedOut.prints prints

/-- Nobody but the collector is called back, and it never ceases to collect. -/
theorem Collecting.callback
    {observer : String}
    {event : Event}
    {moment : Frame Session}
    (collecting : Collecting collector start)
    (callback :
      Run.Callback (delivery perform name) table start observer event moment) :
    observer = collector ∧
      ∃ earlier world,
        moment.world.Collects collector earlier ∧
          delivery perform name observer event moment =
            .ok () { moment with world := world } ∧
          world.Collects collector (earlier ++ event.rules) := by
  cases callback with
  | @intro before shown _ decision _ reaches decides tells =>
      have kept : Collecting collector before :=
        reaches.holds (Collecting collector)
          (fun _ inside performs => inside.performs performs)
          collecting
      have shows := kept.prints decides.printsTo
      rw [shows.alone] at tells
      cases tells with
      | later told tells => cases tells
      | now =>
          obtain ⟨earlier, collects⟩ := shows.collects
          obtain ⟨world, delivered, grown⟩ :=
            delivery_collector collects perform name decision.event
          exact ⟨rfl, earlier, world, collects, delivered, grown⟩

/-- A run that only a collector listens to changes nothing but the collection. -/
theorem collecting_confined
    (collecting : Collecting collector start) :
    Run.Confined (delivery perform name) table start := by
  intro observer event moment callback
  obtain ⟨_, _, world, _, delivered, _⟩ := collecting.callback callback
  exact ⟨world, Run.frameAfter_of_ok delivered⟩

theorem collecting_notificationsEnd
    (collecting : Collecting collector start) :
    Run.NotificationsEnd (delivery perform name) table start := by
  apply (collecting_confined collecting).notificationsEnd
  · intro listener member
    rw [collecting.alone] at member
    exact ⟨collector, List.mem_singleton.mp member⟩
  · intro observer event moment callback
    obtain ⟨_, _, _, _, delivered, _⟩ := collecting.callback callback
    exact ⟨_, delivered⟩

/-- The collection is a record of the rules of all reductions. -/
theorem collecting_records
    (collecting : Collecting collector start) :
    Run.Records (delivery perform name) table start collector Event.rules
      (collection collector) where
  listed := by
    rw [collecting.alone]
    simp [Listener.timesAmong, Listener.isNamed]
  stays := by
    intro observer event moment callback
    rw [(collecting_confined collecting).registry_eq callback]
  own := by
    intro event moment callback
    obtain ⟨_, _, _, collects, delivered, grown⟩ :=
      collecting.callback callback
    rw [Run.frameAfter_of_ok delivered, collects.collection_eq]
    exact grown.collection_eq
  others := by
    intro observer event moment isOther callback
    exact (isOther (collecting.callback callback).1).elim

/-- The collector is still one when the run has come to its end. -/
theorem collecting_exits
    (collecting : Collecting collector frame)
    (perform : Step → Deed Report)
    (name : String)
    (granted : Nat) :
    ∃ left,
      (Run.frameAfter
          (Run.start (delivery perform name) granted) frame).world.Collects
        collector left := by
  have begins : Collecting collector frame.begun :=
    ⟨collecting.alone, collecting.collects⟩
  refine
    Run.start_exits
      (fun frame : Frame Session =>
        ∃ left, frame.world.Collects collector left)
      granted collecting.collects
      (Run.drive_exits (Collecting collector)
        (fun frame : Frame Session =>
          ∃ left, frame.world.Collects collector left)
        ?_ ?_ ?_ ?_ granted .start begins)
  · intro before after inside prints
    exact (inside.prints prints).collects
  · intro before decision after _ inside performs
    exact inside.performs performs
  · intro before decision shown halt after _ inside decides interrupted
    obtain ⟨world, ended, _⟩ :=
      (inside.prints decides.printsTo).notify perform name decision.event
    rw [ended] at interrupted
    cases interrupted
  · intro before decision shown told cause parser _ inside decides notified _
    obtain ⟨world, ended, kept⟩ :=
      (inside.prints decides.printsTo).notify perform name decision.event
    rw [ended] at notified
    cases notified
    exact kept.collects

end Runs

/-- A top-level step that runs a parser is a run from the parser's frame. -/
theorem performStep_run
    (session : Session)
    (name : String)
    (caught : Bool)
    (granted : Nat) :
    ∃ perform : Step → Deed Report,
      performStep granted ⟨name, .run, caught⟩ session =
        match
          Run.start (delivery perform name) granted
            (Session.frame { session with log := [], trace := [] } name) with
        | .ok _ frame => (.ok .nothing, ofFrame name frame)
        | .error halt frame => (.error halt, ofFrame name frame) := by
  obtain ⟨levels, nested⟩ : ∃ levels, session.nesting = levels + 1 :=
    ⟨_, Nat.add_comm 1 _⟩
  refine ⟨Session.perform granted levels, ?_⟩
  have unfolded :
      Session.perform granted (levels + 1) ⟨name, .run, caught⟩ =
        (asRun name
            (Run.start (delivery (Session.perform granted levels) name)
              granted) >>= fun _ => pure Report.nothing) :=
    rfl
  rw [performStep, nested, unfolded]
  simp only [bind, EStateM.bind, asRun]
  cases Run.start (delivery (Session.perform granted levels) name) granted
      (Session.frame { session with log := [], trace := [] } name) with
  | ok result frame => rfl
  | error halt frame => rfl

end Session

end ShiftReduce
