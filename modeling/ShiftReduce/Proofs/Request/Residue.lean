import ShiftReduce.Grammar.Single
import ShiftReduce.Proofs.Request.SetUp

namespace ShiftReduce

/-!
# What failed requests leave behind

A parser may be asked again after a request has failed.  Loading tokens then has left
no trace, but a value that is no table stays in the table's place, and a listener that
could not take the symbol table stays on the registry.  The parser is therefore set up
as if the failed requests had not been made, except that the last value offered as a
table and all listeners are kept, whatever came of them (`Run.tryAll_outfit`).  What
this makes of the run that follows is said by `Run.run_after_failed_requests`.
-/

namespace SetUp

variable
  {store : Store}
  {request : SetUp}

theorem change_table
    (suits : request.Suits store)
    (parser : Parser) :
    (request.change store parser).table = request.table?.getD parser.table := by
  cases request with
  | register listener => rfl
  | setVerbose verbose => rfl
  | loadTokens tokens =>
      obtain ⟨members, holds⟩ := suits
      simp [change, holds, table?]
  | loadTable table =>
      obtain ⟨loaded, rfl⟩ := suits
      rfl

theorem change_registry
    (suits : request.Suits store)
    (parser : Parser) :
    (request.change store parser).registry =
      { parser.registry with
        listeners :=
          parser.registry.listeners ++ request.listener?.toList } := by
  cases request with
  | register listener => rfl
  | setVerbose verbose => simp [change, listener?]
  | loadTokens tokens =>
      obtain ⟨members, holds⟩ := suits
      simp [change, holds, listener?]
  | loadTable table =>
      obtain ⟨loaded, rfl⟩ := suits
      simp [change, listener?]

theorem filterMap_listener_cons
    (request : SetUp)
    (rest : List SetUp) :
    (request :: rest).filterMap listener? =
      request.listener?.toList ++ rest.filterMap listener? := by
  cases brought : request.listener? with
  | none => simp [brought]
  | some listener => simp [brought]

end SetUp

namespace Run

variable {ω : Type}

/-- Those of several requests that succeed when all of them are tried in order. -/
def succeeding
    (receive : Receive ω) :
    List SetUp → Frame ω → List SetUp
  | [], _ => []
  | request :: rest, frame =>
      match setUp receive request frame with
      | .ok _ after => request :: succeeding receive rest after
      | .error _ after => succeeding receive rest after

section Attempts

variable
  {receive : Receive ω}
  {request : SetUp}
  {frame after : Frame ω}

theorem tryAll_of_ok
    (succeeds : setUp receive request frame = .ok () after)
    (rest : List SetUp) :
    tryAll (setUp receive) (request :: rest) frame = tryAll (setUp receive) rest after ∧
      succeeding receive (request :: rest) frame =
        request :: succeeding receive rest after := by
  simp only [tryAll, succeeding, frameAfter_of_ok succeeds, succeeds, and_self]

theorem tryAll_of_error
    {halt : Halt}
    (fails : setUp receive request frame = .error halt after)
    (rest : List SetUp) :
    tryAll (setUp receive) (request :: rest) frame = tryAll (setUp receive) rest after ∧
      succeeding receive (request :: rest) frame =
        succeeding receive rest after := by
  simp only [tryAll, succeeding, frameAfter_of_error fails, fails, and_self]

end Attempts

variable (receive : Receive ω)

/-- What succeeds suits. -/
theorem succeeding_suit
    (requests : List SetUp)
    (frame : Frame ω) :
    ∀ request ∈ succeeding receive requests frame,
      request.Suits frame.store := by
  induction requests generalizing frame with
  | nil => simp [succeeding]
  | cons request rest inductionHypothesis =>
      cases ends : setUp receive request frame with
      | ok result after =>
          obtain ⟨suits, rfl⟩ := setUp_ok ends
          rw [(tryAll_of_ok ends rest).2, List.forall_mem_cons]
          exact ⟨suits, inductionHypothesis _⟩
      | error halt after =>
          cases setUp_error ends
          rw [(tryAll_of_error ends rest).2]
          exact inductionHypothesis _

/--
A parser is set up by the requests that succeed, but for the last value offered as a
table and for the listeners, which are kept even from requests that fail.
-/
theorem tryAll_outfit
    (requests : List SetUp)
    (frame : Frame ω) :
    (tryAll (setUp receive) requests frame).parser =
      { SetUp.outfit frame.store (succeeding receive requests frame)
          frame.parser with
        table := (SetUp.last? SetUp.table? requests).getD frame.parser.table
        registry :=
          { frame.parser.registry with
            listeners :=
              frame.parser.registry.listeners ++
                requests.filterMap SetUp.listener? } } := by
  induction requests generalizing frame with
  | nil => simp [tryAll, succeeding, SetUp.outfit]
  | cons request rest inductionHypothesis =>
      cases ends : setUp receive request frame with
      | ok result after =>
          obtain ⟨suits, rfl⟩ := setUp_ok ends
          rw [(tryAll_of_ok ends rest).1, (tryAll_of_ok ends rest).2,
            inductionHypothesis, SetUp.outfit_cons suits,
            SetUp.change_table suits, SetUp.change_registry suits,
            SetUp.filterMap_listener_cons, SetUp.last?_cons,
            List.append_assoc, Option.getD_or]
      | error halt after =>
          cases setUp_error ends
          rw [(tryAll_of_error ends rest).1, (tryAll_of_error ends rest).2,
            inductionHypothesis, SetUp.filterMap_listener_cons,
            SetUp.last?_cons, Option.getD_or]
          cases request with
          | register listener =>
              simp [SetUp.residue, SetUp.outfit, SetUp.table?,
                SetUp.listener?, Registry.add]
          | setVerbose verbose => cases ends
          | loadTokens tokens => rfl
          | loadTable table => rfl

section Runs

variable
  {frame : Frame ω}
  (deliver : Deliver ω)
  (granted : Nat)

/-- A run ends where the table cannot even be consulted. -/
theorem drive_of_unselected
    {table token : Value}
    {rest : List Value}
    {cause : Fault}
    (lookahead : frame.parser.pending = token :: rest)
    (unselected :
      frame.parser.select frame.store table token = .error cause) :
    drive deliver table (granted + 1) frame =
      .error (.fault (frame.store.settle cause)) frame := by
  have turned :
      turn deliver table token frame =
        .error (.fault (frame.store.settle cause)) frame := by
    change
      (demand (frame.parser.select frame.store table token) >>=
        fun selection =>
          printSelection selection >>= fun _ =>
            demand (frame.parser.decision frame.store selection) >>=
              perform deliver) frame = _
    rw [unselected]
    exact bind_of_error (demand_error cause frame)
  rw [drive_of_lookahead lookahead, turned]

/-- Without a state, a run cannot take its first turn. -/
theorem start_of_no_state
    (loaded : frame.parser.isLoaded = true)
    (unused : frame.parser.ran = false)
    (stateless : frame.parser.states = []) :
    start deliver (granted + 1) frame =
      .error (.fault .indexOutOfRange) frame.begun := by
  have top : frame.begun.parser.topState = .error .indexOutOfRange := by
    simp only [Parser.topState, Frame.begun, stateless]
  rw [start_begins loaded unused]
  cases queue : frame.begun.parser.pending with
  | nil =>
      rw [drive_of_nothing queue, top]
      rfl
  | cons token rest =>
      have unselected :
          frame.begun.parser.select frame.begun.store frame.parser.table token =
            .error .indexOutOfRange := by
        rw [Parser.select, top]
        rfl
      exact drive_of_unselected deliver granted queue unselected

/-- What is no table cannot be asked for an action. -/
theorem start_of_no_table
    {state token : Value}
    {states rest : List Value}
    (loaded : frame.parser.isLoaded = true)
    (unused : frame.parser.ran = false)
    (alien : ∀ table, frame.parser.table ≠ .table table)
    (stack : frame.parser.states = state :: states)
    (queue : frame.parser.pending = token :: rest) :
    start deliver (granted + 1) frame =
      .error
        (.fault (.missingMember frame.parser.table.typeName "action"))
        frame.begun := by
  have lookahead : frame.begun.parser.pending = token :: rest := queue
  have top : frame.begun.parser.topState = .ok state := by
    simp only [Parser.topState, Frame.begun, stack]
  have unselected :
      frame.begun.parser.select frame.begun.store frame.parser.table token =
        .error (.missingMember frame.parser.table.typeName "action") := by
    rw [Parser.select, top]
    generalize frame.parser.table = held at alien
    cases held with
    | table table => exact (alien table rfl).elim
    | _ => rfl
  rw [start_begins loaded unused]
  exact drive_of_unselected deliver granted lookahead unselected

/-- Telling listeners breaks off at the first that is no observer. -/
theorem tellAll_of_stranger
    {event : Event}
    {observers rest : List Listener}
    {value : Value}
    {told : Frame ω}
    (tells : Listener.tellAll deliver event observers frame = .ok () told) :
    Listener.tellAll deliver event (observers ++ .stranger value :: rest)
        frame =
      .error (.fault (.missingMember value.typeName event.reaction)) told := by
  induction observers generalizing frame with
  | nil =>
      cases tells
      rfl
  | cons first others inductionHypothesis =>
      change (first.tell deliver event >>= _) frame = _
      change (first.tell deliver event >>= _) frame = _ at tells
      cases heard : first.tell deliver event frame with
      | error halt after =>
          rw [bind_of_error heard] at tells
          cases tells
      | ok result after =>
          rw [bind_of_ok heard] at tells
          rw [bind_of_ok heard]
          exact inductionHypothesis tells

/-- A run ends with its first action if one of the listeners is no observer. -/
theorem start_of_stranger
    {decision : Decision}
    {shown told : Frame ω}
    {observers rest : List Listener}
    {value : Value}
    (loaded : frame.parser.isLoaded = true)
    (unused : frame.parser.ran = false)
    (listed :
      frame.parser.registry.listeners = observers ++ .stranger value :: rest)
    (decides : Decides frame.parser.table frame.begun decision shown)
    (tells :
      Listener.tellAll deliver decision.event observers shown =
        .ok () told) :
    start deliver (granted + 1) frame =
      .error
        (.fault (.missingMember value.typeName decision.event.reaction))
        told := by
  have notified :
      notify deliver decision.event shown =
        .error
          (.fault (.missingMember value.typeName decision.event.reaction))
          told := by
    change
      Listener.tellAll deliver decision.event shown.parser.registry.listeners
        shown = _
    rw [decides.printsTo.parser]
    simp only [Frame.begun, listed]
    exact tellAll_of_stranger deliver tells
  obtain ⟨token, queue, lookahead⟩ := decides.lookahead
  rw [start_begins loaded unused, drive_of_lookahead lookahead,
    decides.turn_eq lookahead, perform_of_interrupted notified]

end Runs

/-- The last value that was offered as a table. -/
def offered
    (requests : List SetUp) :
    Value :=
  (SetUp.last? SetUp.table? requests).getD .none

section Fresh

variable
  (requests : List SetUp)
  {frame : Frame ω}
  {symbolTable : Value}
  {verbose : Bool}

/-- What requests make of a new parser, whatever came of them. -/
theorem tryAll_new
    (new : frame.parser = .create symbolTable verbose) :
    (tryAll (setUp receive) requests frame).parser =
      { SetUp.outfit frame.store (succeeding receive requests frame)
          frame.parser with
        table := offered requests
        registry := ⟨symbolTable, requests.filterMap SetUp.listener?⟩ } := by
  rw [tryAll_outfit, new]
  rfl

/-- Tokens must have been loaded, and something offered as a table, for a run to begin. -/
theorem tryAll_isLoaded
    (new : frame.parser = .create symbolTable verbose) :
    (tryAll (setUp receive) requests frame).parser.isLoaded =
      (!(offered requests).isNone &&
        (SetUp.last? SetUp.tokens?
          (succeeding receive requests frame)).isSome) := by
  rw [tryAll_new receive requests new, new]
  simp only [Parser.isLoaded, SetUp.outfit, Parser.create]
  cases SetUp.last? SetUp.tokens? (succeeding receive requests frame) with
  | none => rfl
  | some tokens => rfl

/-- A new parser is set up as if failed requests had not been made just if they left nothing. -/
theorem tryAll_eq_outfit_iff
    (new : frame.parser = .create symbolTable verbose) :
    (tryAll (setUp receive) requests frame).parser =
        SetUp.outfit frame.store (succeeding receive requests frame)
          frame.parser ↔
      offered requests = offered (succeeding receive requests frame) ∧
        requests.filterMap SetUp.listener? =
          (succeeding receive requests frame).filterMap SetUp.listener? := by
  rw [tryAll_new receive requests new, new]
  constructor
  · intro same
    constructor
    · exact congrArg Parser.table same
    · exact congrArg (fun parser => parser.registry.listeners) same
  · rintro ⟨sameTable, sameListeners⟩
    rw [sameTable, sameListeners]
    rfl

/--
What requests that fail leave behind shows in the run that follows.

A failed request leaves its residue: nothing of tokens, but a value in the table's
place or a listener on the registry.  After any requests to a new parser, some of which
may have failed, the parser is set up as if the failed ones had not been made, but for
the table, which is the last value offered, and for the listeners, who all are listed.
It is set up just as if they had not been made if the last value offered was loaded and
everyone who was offered as a listener was registered.

A run is refused if no tokens were loaded or nothing but `None` was offered last.  If
something else was offered last that is no table, the run begins all the same: it finds
no state on its stack if no table was ever loaded, and otherwise cannot ask the value
for an action.  A listener that is no observer ends the run with its first action.
-/
theorem run_after_failed_requests
    (new : frame.parser = .create symbolTable verbose) :
    (∀ request halt (before after : Frame ω),
      setUp receive request before = .error halt after →
        after.parser = request.residue before.parser) ∧
    (tryAll (setUp receive) requests frame).parser =
      { SetUp.outfit frame.store (succeeding receive requests frame)
          frame.parser with
        table := offered requests
        registry := ⟨symbolTable, requests.filterMap SetUp.listener?⟩ } ∧
    ((tryAll (setUp receive) requests frame).parser =
        SetUp.outfit frame.store (succeeding receive requests frame)
          frame.parser ↔
      offered requests = offered (succeeding receive requests frame) ∧
        requests.filterMap SetUp.listener? =
          (succeeding receive requests frame).filterMap SetUp.listener?) ∧
    (SetUp.last? SetUp.tokens? (succeeding receive requests frame) = none ∨
        offered requests = .none →
      ∀ deliver granted,
        start deliver granted (tryAll (setUp receive) requests frame) =
          .error (.fault .notLoaded) (tryAll (setUp receive) requests frame)) ∧
    (∀ tokens,
      SetUp.last? SetUp.tokens? (succeeding receive requests frame) =
          some tokens →
        offered requests ≠ .none →
        (SetUp.last? SetUp.table? (succeeding receive requests frame) = none →
          ∀ deliver granted,
            start deliver (granted + 1) (tryAll (setUp receive) requests frame) =
              .error (.fault .indexOutOfRange)
                (tryAll (setUp receive) requests frame).begun) ∧
        (∀ table,
          SetUp.last? SetUp.table? (succeeding receive requests frame) =
              some table →
            (∀ loaded, offered requests ≠ .table loaded) →
            SetUp.membersOf frame.store tokens ≠ [] →
            ∀ deliver granted,
              start deliver (granted + 1) (tryAll (setUp receive) requests frame) =
                .error
                  (.fault
                    (.missingMember (offered requests).typeName "action"))
                  (tryAll (setUp receive) requests frame).begun) ∧
        (∀ observers value rest decision shown told deliver granted,
          requests.filterMap SetUp.listener? =
              observers ++ .stranger value :: rest →
            Decides (offered requests)
                (tryAll (setUp receive) requests frame).begun decision shown →
            Listener.tellAll deliver decision.event observers shown =
                .ok () told →
              start deliver (granted + 1) (tryAll (setUp receive) requests frame) =
                .error
                  (.fault
                    (.missingMember value.typeName decision.event.reaction))
                  told)) := by
  have setsUp := tryAll_new receive requests new
  have held : (tryAll (setUp receive) requests frame).parser.table = offered requests :=
    congrArg Parser.table setsUp
  have unused : (tryAll (setUp receive) requests frame).parser.ran = false := by
    rw [setsUp, new]
    rfl
  refine ⟨?_, setsUp, tryAll_eq_outfit_iff receive requests new, ?_, ?_⟩
  · intro request halt before after fails
    rw [setUp_error fails]
  · intro unready deliver granted
    apply start_of_unloaded
    rw [tryAll_isLoaded receive requests new]
    rcases unready with untaken | nothing
    · simp [untaken]
    · simp [nothing, Value.isNone]
  · intro tokens taken something
    have loaded : (tryAll (setUp receive) requests frame).parser.isLoaded = true := by
      rw [tryAll_isLoaded receive requests new, taken]
      cases isOffered : offered requests with
      | none => exact (something isOffered).elim
      | _ => rfl
    refine ⟨?_, ?_, ?_⟩
    · intro unloaded deliver granted
      apply start_of_no_state deliver granted loaded unused
      rw [setsUp, new]
      simp [SetUp.outfit, unloaded, Parser.create]
    · intro table isLoaded alien nonempty deliver granted
      obtain ⟨first, rfl⟩ :=
        SetUp.suits_of_last (succeeding_suit receive requests frame) isLoaded
      obtain ⟨token, rest, membersAre⟩ := List.exists_cons_of_ne_nil nonempty
      have stack :
          (tryAll (setUp receive) requests frame).parser.states = [first.initial] := by
        rw [setsUp]
        simp [SetUp.outfit, isLoaded, SetUp.statesOf]
      have queue :
          (tryAll (setUp receive) requests frame).parser.pending = token :: rest := by
        rw [setsUp]
        simp [SetUp.outfit, taken, membersAre]
      rw [← held] at alien ⊢
      exact start_of_no_table deliver granted loaded unused alien stack queue
    · intro observers value rest decision shown told deliver granted listed
        decides tells
      have everyone :
          (tryAll (setUp receive) requests frame).parser.registry.listeners =
            observers ++ .stranger value :: rest := by
        rw [setsUp]
        exact listed
      rw [← held] at decides
      exact start_of_stranger deliver granted loaded unused everyone decides tells

end Fresh

/-- A new parser in a world without observers. -/
def unattended : Frame Unit :=
  ⟨.create .none false, .empty, [], ()⟩

/-- Tokens are loaded, and a number is offered as a table. -/
def numberForTable : List SetUp :=
  [.loadTokens (.list [.token .endOfInput]), .loadTable (.int 5)]

/-- A run that follows a number in the table's place finds no state on its stack. -/
theorem run_after_number_for_table :
    start (fun _ _ => pure ()) 1
        (tryAll (setUp fun _ _ => pure ()) numberForTable unattended) =
      .error (.fault .indexOutOfRange)
        (tryAll (setUp fun _ _ => pure ()) numberForTable unattended).begun := by
  have new : unattended.parser = .create .none false := rfl
  have runs :=
    run_after_failed_requests (fun _ _ => pure ()) numberForTable new
  exact (runs.2.2.2.2 _ rfl Value.noConfusion).1 rfl _ 0

/--
Requests that fail do not leave the parser as it was.

A number that is offered as a table is refused and stays in the table's place, so that
the run which follows is not refused, as it would be if the number had not been offered.
A number that is offered as a listener stays on the registry, so that the run which
follows fails with its first action.
-/
theorem failed_requests_leave_residue :
    (∃ after,
      setUp (fun _ _ => pure ()) (.loadTable (.int 5)) unattended =
          .error (.fault (.missingMember "int" "initial_state")) after ∧
        after.parser.table = .int 5) ∧
    start (fun _ _ => pure ()) 1
        (tryAll (setUp fun _ _ => pure ())
          [.loadTokens (.list [.token .endOfInput])] unattended) =
      .error (.fault .notLoaded)
        (tryAll (setUp fun _ _ => pure ())
          [.loadTokens (.list [.token .endOfInput])] unattended) ∧
    start (fun _ _ => pure ()) 1
        (tryAll (setUp fun _ _ => pure ()) numberForTable unattended) =
      .error (.fault .indexOutOfRange)
        (tryAll (setUp fun _ _ => pure ()) numberForTable unattended).begun ∧
    (∃ after,
      setUp (fun _ _ => pure ()) (.register (.stranger (.int 5)))
            unattended =
          .error (.fault (.missingMember "int" "set_symbol_table")) after ∧
        after.parser.registry.listeners = [.stranger (.int 5)]) ∧
    ∃ after,
      start (fun _ _ => pure ()) 1
          (tryAll (setUp fun _ _ => pure ())
            [.register (.stranger (.int 5)),
              .loadTokens (.list [.token (.ofKind "a")]),
              .loadTable (.table Grammar.Single.table)]
            unattended) =
        .error (.fault (.missingMember "int" "on_shift")) after :=
  ⟨⟨_, rfl, rfl⟩, rfl, rfl, ⟨_, rfl, rfl⟩, ⟨_, rfl⟩⟩

end Run

end ShiftReduce
