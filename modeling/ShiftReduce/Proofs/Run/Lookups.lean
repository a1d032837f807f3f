import ShiftReduce.Proofs.Run.Turn

namespace ShiftReduce

/-!
# Runs over any look-ups

A run has its table answer three sorts of questions: which action there is for a state and a
kind, where a reduction goes to, and what a state expects once a token is refused.
`Lookups` are answers to these questions that come from anywhere, and `Run.driveBy` is the
run that goes by them.  To run with a table is to go by its look-ups
(`Run.drive_eq_driveBy`).

`Run.points` lists the points at which a run consults its look-ups, of which there are two a
turn at most.  A run depends on nothing but the answers there (`Run.driveBy_congr`).
-/

/-- What a run has its table answer, as things stand in a store. -/
structure Lookups where
  action : Store → Value → Value → Except Fault Value
  goto : Store → Value → Value → Except Fault Value
  diagnose : Store → Value → Except Fault (List Value)

/-- The look-ups of a table. -/
def Table.lookups
    (table : Table) :
    Lookups where
  action store state kind := table.action store state kind
  goto store state head := table.goto store state head
  diagnose store state := table.diagnose store state

namespace Lookups

/-- A point at which look-ups are consulted. -/
inductive Point where
  | action (store : Store) (state kind : Value)
  | goto (store : Store) (state head : Value)
  | diagnosis (store : Store) (state : Value)

/-- Two ways to look up have the same answer at a point. -/
def AgreeAt
    (lookups others : Lookups) :
    Point → Prop
  | .action store state kind =>
      others.action store state kind = lookups.action store state kind
  | .goto store state head =>
      others.goto store state head = lookups.goto store state head
  | .diagnosis store state =>
      others.diagnose store state = lookups.diagnose store state

end Lookups

/-- What look-ups say about a parser's state and lookahead. -/
structure Choice where
  state : Value
  token : Value
  action : Value

/-- The selection that a table makes if it says so. -/
def Choice.selectedFrom
    (choice : Choice)
    (table : Table) :
    Selection :=
  ⟨table, choice.state, choice.token, choice.action⟩

namespace Parser

/-- Consult look-ups about the top state and a lookahead. -/
def choose
    (store : Store)
    (parser : Parser)
    (lookups : Lookups)
    (token : Value) :
    Except Fault Choice := do
  let state ← parser.topState
  match token.kind? with
  | some kind =>
      let action ← lookups.action store state (.text kind)
      return ⟨state, token, action⟩
  | none => .error (token.lacks "kind")

/-- The state to go to after a reduction, according to look-ups. -/
def nextBy
    (store : Store)
    (parser : Parser)
    (lookups : Lookups)
    (choice : Choice)
    (production : Production) :
    Except Fault Value := do
  if parser.symbols.length ≤ production.length then
    .error (.malformedTable
      (.tooDeep production (parser.symbols.length - 1) choice.state))
  else
    let exposed ← parser.exposedState production.length
    let nextState ← lookups.goto store exposed production.head
    if nextState.isNone then
      .error (.malformedTable (.missingGoto production.head exposed))
    else
      return nextState

/-- The complaint about a token that look-ups refuse. -/
def refuseBy
    (store : Store)
    (lookups : Lookups)
    (choice : Choice) :
    Except Fault Decision := do
  let _ ←
    Fault.ofRendering
      (Fault.refusal
        (store.resolve choice.token)
        (store.resolve choice.state))
  let expected ← lookups.diagnose store choice.state
  .error (.unexpectedToken choice.state choice.token expected)

/-- The chosen action, once it is sure that it can be carried out. -/
def decisionBy
    (store : Store)
    (parser : Parser)
    (lookups : Lookups)
    (choice : Choice) :
    Except Fault Decision :=
  match choice.action with
  | .action (.shift .direct nextState) =>
      .ok (.shift choice.state choice.token nextState)
  | .action (.reduce .direct (.production production)) => do
      let nextState ← parser.nextBy store lookups choice production
      return .reduce choice.state production nextState
  | .action (.reduce .direct value) => parser.refuseReduction store value
  | .action (.accept .direct) => .ok (.accept choice.state)
  | .action (.error .direct) => refuseBy store lookups choice
  | action =>
      .error (.malformedTable (.unknownAction action choice.state))

/-- The point at which an action is looked up, if a parser gets that far. -/
def actionPoint?
    (store : Store)
    (parser : Parser)
    (token : Value) :
    Option Lookups.Point :=
  match parser.topState, token.kind? with
  | .ok state, some kind => some (.action store state (.text kind))
  | _, _ => none

/-- The point at which it is looked up where a reduction goes to, unless it goes too deep. -/
def gotoPoint?
    (store : Store)
    (parser : Parser)
    (production : Production) :
    Option Lookups.Point :=
  if parser.symbols.length ≤ production.length then
    none
  else
    match parser.exposedState production.length with
    | .ok exposed => some (.goto store exposed production.head)
    | .error _ => none

/-- The point at which a refused token is diagnosed, unless it cannot be worded. -/
def diagnosisPoint?
    (store : Store)
    (choice : Choice) :
    Option Lookups.Point :=
  match
    Fault.refusal
      (store.resolve choice.token)
      (store.resolve choice.state) with
  | .ok _ => some (.diagnosis store choice.state)
  | .error _ => none

/-- The point at which look-ups are consulted once more for the chosen action, if at all. -/
def decisionPoint?
    (store : Store)
    (parser : Parser)
    (choice : Choice) :
    Option Lookups.Point :=
  match choice.action with
  | .action (.reduce .direct (.production production)) =>
      parser.gotoPoint? store production
  | .action (.error .direct) => diagnosisPoint? store choice
  | _ => none

variable
  {store : Store}
  {parser : Parser}
  {lookups others : Lookups}
  {choice : Choice}
  {token : Value}

/-- A table selects what its look-ups choose. -/
theorem select_eq_choose
    (store : Store)
    (parser : Parser)
    (table : Table)
    (token : Value) :
    parser.select store (.table table) token =
      (parser.choose store table.lookups token).map
        fun choice => choice.selectedFrom table := by
  unfold select choose
  cases top : parser.topState with
  | error cause => rfl
  | ok state =>
      cases kind : token.kind? with
      | none => rfl
      | some name =>
          simp only [bind, Except.bind]
          cases looked : table.action store state (.text name) with
          | error cause => simp only [Table.lookups, looked]; rfl
          | ok action => simp only [Table.lookups, looked]; rfl

/-- What can be carried out with a table is what its look-ups decide. -/
theorem decision_eq_decisionBy
    (store : Store)
    (parser : Parser)
    (table : Table)
    (choice : Choice) :
    parser.decision store (choice.selectedFrom table) =
      parser.decisionBy store table.lookups choice :=
  rfl

/-- What is chosen depends on the answer at one point. -/
theorem choose_congr
    (agree :
      ∀ point ∈ parser.actionPoint? store token, lookups.AgreeAt others point) :
    parser.choose store others token = parser.choose store lookups token := by
  unfold actionPoint? at agree
  unfold choose
  cases top : parser.topState with
  | error cause => rfl
  | ok state =>
      cases kind : token.kind? with
      | none => rfl
      | some name =>
          rw [top, kind] at agree
          have same : others.action store state (.text name) = _ := agree _ rfl
          simp only [bind, Except.bind, same]

theorem nextBy_congr
    {production : Production}
    (agree :
      ∀ point ∈ parser.gotoPoint? store production, lookups.AgreeAt others point) :
    parser.nextBy store others choice production =
      parser.nextBy store lookups choice production := by
  unfold gotoPoint? at agree
  unfold nextBy
  split
  · rfl
  · next shallow =>
      rw [if_neg shallow] at agree
      cases state : parser.exposedState production.length with
      | error cause => rfl
      | ok exposed =>
          rw [state] at agree
          have same : others.goto store exposed production.head = _ := agree _ rfl
          simp only [bind, Except.bind, same]

theorem refuseBy_congr
    (agree :
      ∀ point ∈ diagnosisPoint? store choice, lookups.AgreeAt others point) :
    refuseBy store others choice = refuseBy store lookups choice := by
  unfold diagnosisPoint? at agree
  unfold refuseBy
  cases wording :
      Fault.refusal
        (store.resolve choice.token)
        (store.resolve choice.state) with
  | error misfit => rfl
  | ok text =>
      rw [wording] at agree
      have same : others.diagnose store choice.state = _ := agree _ rfl
      simp only [bind, Except.bind, Fault.ofRendering, same]

theorem refuseBy_fails
    (store : Store)
    (lookups : Lookups)
    (choice : Choice) :
    ∃ cause, refuseBy store lookups choice = .error cause := by
  unfold refuseBy
  cases Fault.refusal
      (store.resolve choice.token)
      (store.resolve choice.state) with
  | error misfit => exact ⟨_, rfl⟩
  | ok text =>
      simp only [bind, Except.bind, Fault.ofRendering]
      cases lookups.diagnose store choice.state with
      | error cause => exact ⟨_, rfl⟩
      | ok expected => exact ⟨_, rfl⟩

/-- What is decided depends on the answer at one point. -/
theorem decisionBy_congr
    (agree :
      ∀ point ∈ parser.decisionPoint? store choice, lookups.AgreeAt others point) :
    parser.decisionBy store others choice =
      parser.decisionBy store lookups choice := by
  rcases choice with ⟨state, token, action⟩
  cases action with
  | action carried =>
      cases carried with
      | reduce lineage rule =>
          cases lineage with
          | direct =>
              cases rule with
              | production production =>
                  simp only [decisionBy, nextBy_congr agree]
              | _ => rfl
          | derived derivedClass => rfl
      | error lineage =>
          cases lineage with
          | direct => exact refuseBy_congr agree
          | derived derivedClass => rfl
      | shift lineage nextState =>
          cases lineage with
          | direct => rfl
          | derived derivedClass => rfl
      | accept lineage =>
          cases lineage with
          | direct => rfl
          | derived derivedClass => rfl
      | unknown lineage => rfl
  | _ => rfl

/-- A token that look-ups refuse is never decided on. -/
theorem decisionBy_of_diagnosis
    (lookups : Lookups)
    {asked : Store}
    {state : Value}
    (raised : parser.decisionPoint? store choice = some (.diagnosis asked state)) :
    ∃ cause, parser.decisionBy store lookups choice = .error cause := by
  unfold decisionPoint? at raised
  unfold decisionBy
  split at raised
  · next production reduces =>
      unfold gotoPoint? at raised
      split at raised
      · cases raised
      · split at raised <;> cases raised
  · next refuses =>
      rw [refuses]
      exact refuseBy_fails store lookups choice
  · cases raised

end Parser

namespace Run

variable {ω : Type}

/-- Show the stacks, the lookahead and the chosen action if the parser is verbose. -/
def printChoice
    (choice : Choice) :
    Run ω Unit := do
  let current ← parser
  if current.verbose then
    print current.stackBlock
    print (.lookahead choice.token)
    print (.action choice.action)

/-- One turn with a given lookahead that goes by look-ups. -/
def turnBy
    (deliver : Deliver ω)
    (lookups : Lookups)
    (token : Value) :
    Run ω Progress := do
  let current ← parser
  let held ← store
  let choice ← demand (current.choose held lookups token)
  printChoice choice
  let decision ← demand (current.decisionBy held lookups choice)
  perform deliver decision

/-- Take turns that go by look-ups, for as many turns as are granted. -/
def driveBy
    (deliver : Deliver ω)
    (lookups : Lookups) :
    Nat → Run ω Unit
  | 0 => throw .outOfSteps
  | granted + 1 => do
      let current ← parser
      match current.pending with
      | [] => exhausted
      | token :: _ =>
          match ← turnBy deliver lookups token with
          | .finished => return ()
          | .running => driveBy deliver lookups granted

/-- The points at which a turn consults look-ups, in order. -/
def turnPoints
    (lookups : Lookups)
    (token : Value)
    (frame : Frame ω) :
    List Lookups.Point :=
  (frame.parser.actionPoint? frame.store token).toList ++
    match frame.parser.choose frame.store lookups token with
    | .ok choice =>
        match printChoice choice frame with
        | .ok _ _ => (frame.parser.decisionPoint? frame.store choice).toList
        | .error _ _ => []
    | .error _ => []

/-- The points at which a run consults look-ups, in order. -/
def points
    (deliver : Deliver ω)
    (lookups : Lookups) :
    Nat → Frame ω → List Lookups.Point
  | 0, _ => []
  | granted + 1, frame =>
      match frame.parser.pending with
      | [] => []
      | token :: _ =>
          turnPoints lookups token frame ++
            match turnBy deliver lookups token frame with
            | .ok .running after => points deliver lookups granted after
            | _ => []

variable
  {deliver : Deliver ω}
  {lookups others : Lookups}
  {token : Value}
  {frame : Frame ω}

/-- A turn by look-ups consults, shows and decides as the frame is at its beginning. -/
theorem turnBy_eq
    (deliver : Deliver ω)
    (lookups : Lookups)
    (token : Value)
    (frame : Frame ω) :
    turnBy deliver lookups token frame =
      (demand (frame.parser.choose frame.store lookups token) >>=
        fun choice =>
          printChoice choice >>= fun _ =>
            demand (frame.parser.decisionBy frame.store lookups choice) >>=
              perform deliver) frame :=
  rfl

theorem turn_eq_turnBy
    (deliver : Deliver ω)
    (table : Table)
    (token : Value)
    (frame : Frame ω) :
    turn deliver (.table table) token frame =
      turnBy deliver table.lookups token frame := by
  change
    (demand (frame.parser.select frame.store (.table table) token) >>=
      fun selection =>
        printSelection selection >>= fun _ =>
          demand (frame.parser.decision frame.store selection) >>=
            perform deliver) frame = _
  rw [turnBy_eq, Parser.select_eq_choose]
  cases frame.parser.choose frame.store table.lookups token with
  | error cause => rfl
  | ok choice =>
      change
        (printChoice choice >>= fun _ =>
          demand (frame.parser.decision frame.store (choice.selectedFrom table)) >>=
            perform deliver) frame = _
      rw [Parser.decision_eq_decisionBy]
      rfl

/-- With a lookahead in the queue, a run by look-ups takes a turn and then goes on or not. -/
theorem driveBy_of_lookahead
    {rest : List Value}
    (lookahead : frame.parser.pending = token :: rest)
    (deliver : Deliver ω)
    (lookups : Lookups)
    (granted : Nat) :
    driveBy deliver lookups (granted + 1) frame =
      match turnBy deliver lookups token frame with
      | .ok .finished after => .ok () after
      | .ok .running after => driveBy deliver lookups granted after
      | .error halt after => .error halt after := by
  rw [driveBy, bind_of_ok (parser_ok frame), lookahead]
  cases turned : turnBy deliver lookups token frame with
  | error halt after => exact bind_of_error turned
  | ok progress after =>
      cases progress with
      | finished => exact bind_of_ok turned
      | running => exact bind_of_ok turned

theorem driveBy_of_nothing
    (exhausts : frame.parser.pending = [])
    (deliver : Deliver ω)
    (lookups : Lookups)
    (granted : Nat) :
    driveBy deliver lookups (granted + 1) frame = exhausted frame := by
  rw [driveBy, bind_of_ok (parser_ok frame), exhausts]

/-- To run with a table is to go by its look-ups. -/
theorem drive_eq_driveBy
    (deliver : Deliver ω)
    (table : Table)
    (granted : Nat)
    (frame : Frame ω) :
    drive deliver (.table table) granted frame =
      driveBy deliver table.lookups granted frame := by
  induction granted generalizing frame with
  | zero => rfl
  | succ granted inductionHypothesis =>
      cases pending : frame.parser.pending with
      | nil =>
          rw [driveBy_of_nothing pending, drive, bind_of_ok (parser_ok frame), pending]
      | cons token rest =>
          rw [drive_of_lookahead pending, driveBy_of_lookahead pending, turn_eq_turnBy]
          cases turnBy deliver table.lookups token frame with
          | error halt after => rfl
          | ok progress after =>
              cases progress with
              | finished => rfl
              | running => exact inductionHypothesis after

/-- With a lookahead in the queue, the points of a run are those of a turn and of the rest. -/
theorem points_of_lookahead
    {rest : List Value}
    (lookahead : frame.parser.pending = token :: rest)
    (deliver : Deliver ω)
    (lookups : Lookups)
    (granted : Nat) :
    points deliver lookups (granted + 1) frame =
      turnPoints lookups token frame ++
        match turnBy deliver lookups token frame with
        | .ok .running after => points deliver lookups granted after
        | _ => [] := by
  rw [points, lookahead]

theorem length_turnPoints
    (lookups : Lookups)
    (token : Value)
    (frame : Frame ω) :
    (turnPoints lookups token frame).length ≤ 2 := by
  have atMostOne :
      ∀ point? : Option Lookups.Point, point?.toList.length ≤ 1 := by
    intro point?
    cases point? with
    | none => exact Nat.zero_le 1
    | some point => exact Nat.le_refl 1
  unfold turnPoints
  rw [List.length_append]
  change _ ≤ 1 + 1
  refine Nat.add_le_add (atMostOne _) ?_
  split
  · split
    · exact atMostOne _
    · exact Nat.zero_le 1
  · exact Nat.zero_le 1

/-- A run consults its look-ups twice a turn at most. -/
theorem length_points
    (deliver : Deliver ω)
    (lookups : Lookups)
    (granted : Nat)
    (frame : Frame ω) :
    (points deliver lookups granted frame).length ≤ 2 * granted := by
  induction granted generalizing frame with
  | zero => exact Nat.le_refl 0
  | succ granted inductionHypothesis =>
      cases pending : frame.parser.pending with
      | nil =>
          rw [points, pending]
          exact Nat.zero_le _
      | cons token rest =>
          rw [points_of_lookahead pending, List.length_append]
          have first := length_turnPoints lookups token frame
          split
          · next after _ =>
              have later := inductionHypothesis after
              omega
          · rw [List.length_nil]
            omega

section Diagnosis

variable
  {asked askedToo : Store}
  {state otherState : Value}

/-- A diagnosis is asked for by what is chosen. -/
theorem diagnosis_mem_turnPoints
    (consulted : .diagnosis asked state ∈ turnPoints lookups token frame) :
    ∃ choice,
      frame.parser.choose frame.store lookups token = .ok choice ∧
        frame.parser.decisionPoint? frame.store choice = some (.diagnosis asked state) := by
  unfold turnPoints at consulted
  rcases List.mem_append.mp consulted with first | second
  · have raised := Option.mem_toList.mp first
    unfold Parser.actionPoint? at raised
    split at raised <;> cases raised
  · split at second
    · next choice chosen =>
        split at second
        · exact ⟨choice, chosen, Option.mem_toList.mp second⟩
        · cases second
    · cases second

/-- A turn does not go on from a diagnosis. -/
theorem turnBy_of_diagnosis
    {choice : Choice}
    (deliver : Deliver ω)
    (chosen : frame.parser.choose frame.store lookups token = .ok choice)
    (raised :
      frame.parser.decisionPoint? frame.store choice = some (.diagnosis asked state)) :
    ∃ halt after, turnBy deliver lookups token frame = .error halt after := by
  obtain ⟨cause, refused⟩ := Parser.decisionBy_of_diagnosis lookups raised
  rw [turnBy_eq, chosen, bind_of_ok (demand_ok choice frame)]
  cases printed : printChoice choice frame with
  | error halt shown => exact ⟨halt, shown, bind_of_error printed⟩
  | ok result shown =>
      rw [bind_of_ok printed, refused]
      exact ⟨_, _, bind_of_error (demand_error cause shown)⟩

theorem diagnosis_not_mem_turnPoints
    {progress : Progress}
    {after : Frame ω}
    (turned : turnBy deliver lookups token frame = .ok progress after) :
    .diagnosis asked state ∉ turnPoints lookups token frame := by
  intro consulted
  obtain ⟨choice, chosen, raised⟩ := diagnosis_mem_turnPoints consulted
  obtain ⟨halt, last, failed⟩ := turnBy_of_diagnosis deliver chosen raised
  rw [turned] at failed
  cases failed

theorem diagnosis_unique_in_turn
    (consulted : .diagnosis asked state ∈ turnPoints lookups token frame)
    (consultedToo : .diagnosis askedToo otherState ∈ turnPoints lookups token frame) :
    asked = askedToo ∧ state = otherState := by
  obtain ⟨choice, chosen, raised⟩ := diagnosis_mem_turnPoints consulted
  obtain ⟨other, otherChosen, otherRaised⟩ := diagnosis_mem_turnPoints consultedToo
  rw [chosen] at otherChosen
  cases otherChosen
  rw [raised] at otherRaised
  cases otherRaised
  exact ⟨rfl, rfl⟩

/-- A run diagnoses one token at most. -/
theorem diagnosis_unique
    {granted : Nat}
    (consulted : .diagnosis asked state ∈ points deliver lookups granted frame)
    (consultedToo : .diagnosis askedToo otherState ∈ points deliver lookups granted frame) :
    asked = askedToo ∧ state = otherState := by
  induction granted generalizing frame with
  | zero => cases consulted
  | succ granted inductionHypothesis =>
      cases pending : frame.parser.pending with
      | nil =>
          rw [points, pending] at consulted
          cases consulted
      | cons token rest =>
          rw [points_of_lookahead pending, List.mem_append] at consulted consultedToo
          cases turned : turnBy deliver lookups token frame with
          | error halt after =>
              rw [turned] at consulted consultedToo
              exact
                diagnosis_unique_in_turn
                  (consulted.resolve_right List.not_mem_nil)
                  (consultedToo.resolve_right List.not_mem_nil)
          | ok progress after =>
              have later := consulted.resolve_left (diagnosis_not_mem_turnPoints turned)
              have laterToo :=
                consultedToo.resolve_left (diagnosis_not_mem_turnPoints turned)
              rw [turned] at later laterToo
              cases progress with
              | finished => cases later
              | running => exact inductionHypothesis later laterToo

end Diagnosis

/-- A turn depends on nothing but the answers at its points. -/
theorem turnBy_congr
    (agree : ∀ point ∈ turnPoints lookups token frame, lookups.AgreeAt others point) :
    turnBy deliver others token frame = turnBy deliver lookups token frame := by
  have chosen :
      frame.parser.choose frame.store others token =
        frame.parser.choose frame.store lookups token :=
    Parser.choose_congr fun point asked =>
      agree point (List.mem_append_left _ (Option.mem_toList.mpr asked))
  rw [turnBy_eq, turnBy_eq, chosen]
  cases made : frame.parser.choose frame.store lookups token with
  | error cause => rfl
  | ok choice =>
      rw [bind_of_ok (demand_ok choice frame), bind_of_ok (demand_ok choice frame)]
      cases printed : printChoice choice frame with
      | error halt shown => rw [bind_of_error printed, bind_of_error printed]
      | ok result shown =>
          have decided :
              frame.parser.decisionBy frame.store others choice =
                frame.parser.decisionBy frame.store lookups choice := by
            refine Parser.decisionBy_congr fun point asked => agree point ?_
            unfold turnPoints
            rw [made]
            dsimp only
            rw [printed]
            exact List.mem_append_right _ (Option.mem_toList.mpr asked)
          rw [bind_of_ok printed, bind_of_ok printed, decided]

/-- A run depends on nothing but the answers at its points. -/
theorem driveBy_congr
    {granted : Nat}
    (agree :
      ∀ point ∈ points deliver lookups granted frame, lookups.AgreeAt others point) :
    driveBy deliver others granted frame = driveBy deliver lookups granted frame := by
  induction granted generalizing frame with
  | zero => rfl
  | succ granted inductionHypothesis =>
      cases pending : frame.parser.pending with
      | nil => rw [driveBy_of_nothing pending, driveBy_of_nothing pending]
      | cons token rest =>
          rw [points_of_lookahead pending] at agree
          have sameTurn :
              turnBy deliver others token frame = turnBy deliver lookups token frame :=
            turnBy_congr fun point asked =>
              agree point (List.mem_append_left _ asked)
          rw [driveBy_of_lookahead pending, driveBy_of_lookahead pending, sameTurn]
          cases turned : turnBy deliver lookups token frame with
          | error halt after => rfl
          | ok progress after =>
              cases progress with
              | finished => rfl
              | running =>
                  rw [turned] at agree
                  exact
                    inductionHypothesis fun point asked =>
                      agree point (List.mem_append_right _ asked)

/-- Two tables that agree at the points of a run with one of them lead to the same run. -/
theorem drive_of_agree
    {table other : Table}
    {granted : Nat}
    (agree :
      ∀ point ∈ points deliver table.lookups granted frame,
        table.lookups.AgreeAt other.lookups point) :
    drive deliver (.table other) granted frame =
      drive deliver (.table table) granted frame := by
  rw [drive_eq_driveBy, drive_eq_driveBy]
  exact driveBy_congr agree

end Run

end ShiftReduce
