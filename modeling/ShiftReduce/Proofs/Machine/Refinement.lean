import ShiftReduce.Grammar.Nullable
import ShiftReduce.Proofs.Machine.Lockstep
import ShiftReduce.Proofs.Run.Confined

namespace ShiftReduce

/-!
# Runs refine the textbook machine

A run of a parser with an orderly table and plain tokens ends as the machine ends,
with the same stacks and the same queue, and goes on for as long as the machine does
(`Run.run_refines_machine`).  Nothing is asked of the observers but that they return
and leave the parse and the payloads of its tokens alone; the parser may be verbose.
-/

/-- The machine comes to a verdict on tokens. -/
def Machine.Ends
    (table : Table)
    (tokens : List Token)
    (verdict : Machine.Verdict) :
    Prop :=
  ∃ events last,
    Machine.Steps table (Machine.begin table tokens) events last ∧
      Machine.step table last = .ends verdict

theorem Machine.ends_iff
    (table : Table)
    (tokens : List Token)
    (verdict : Machine.Verdict) :
    Machine.Ends table tokens verdict ↔
      ∃ granted,
        (Machine.run table granted (Machine.begin table tokens)).verdict =
          some verdict :=
  (Machine.run_verdict_iff table (Machine.begin table tokens) verdict).symm

namespace Run

variable
  {ω : Type}
  {deliver : Deliver ω}
  {table : Table}

namespace Concludes

variable
  {ending : Machine.Ending}
  {result : EStateM.Result Halt (Frame ω) Unit}

theorem accepted_iff
    (concludes : Concludes ending result) :
    (∃ after, result = .ok () after ∧ after.parser.accepted = true) ↔
      ∃ state, ending.verdict = some (.accepted state) := by
  cases concludes with
  | accepted situation verdict => simp [verdict]
  | refused situation verdict lookahead => simp
  | stuck situation verdict => simp
  | unfinished situation verdict => simp

theorem refused_iff
    (concludes : Concludes ending result) :
    (∃ state token expected after,
      result = .error (.fault (.unexpectedToken state token expected)) after) ↔
      ∃ state token, ending.verdict = some (.refused state token) := by
  cases concludes with
  | accepted situation verdict => simp
  | refused situation verdict lookahead => simp
  | stuck situation verdict => simp
  | unfinished situation verdict => simp

theorem stuck_iff
    (concludes : Concludes ending result) :
    (∃ defect after,
      result = .error (.fault (.malformedTable defect)) after) ↔
      ∃ defect, ending.verdict = some (.stuck defect) := by
  cases concludes with
  | accepted situation verdict => simp
  | refused situation verdict lookahead => simp
  | stuck situation verdict => simp
  | unfinished situation verdict => simp

theorem unfinished_iff
    (concludes : Concludes ending result) :
    (∃ after, result = .error .outOfSteps after) ↔ ending.verdict = none := by
  cases concludes with
  | accepted situation verdict => simp
  | refused situation verdict lookahead => simp
  | stuck situation verdict => simp
  | unfinished situation verdict => simp

/-- A refusal names the state on top and the token that is next in the queue. -/
theorem refused_at
    {state token : Value}
    {expected : List Value}
    {after : Frame ω}
    (concludes :
      Concludes ending
        (.error (.fault (.unexpectedToken state token expected)) after)) :
    after.parser.states.head? = some state ∧
      ∃ first rest,
        after.parser.pending = first :: rest ∧
          token = after.store.resolve first := by
  cases concludes with
  | @refused token last events _ _ situation verdict lookahead =>
      obtain ⟨below, shape⟩ := last.states_eq
      obtain ⟨rest, queue⟩ := List.head?_eq_some_iff.mp lookahead
      have states : after.parser.states = last.situation.states :=
        congrArg Situation.states situation
      have pending : after.parser.pending = last.situation.pending :=
        congrArg Situation.pending situation
      refine ⟨?_, .token token, rest.map .token, ?_, rfl⟩
      · rw [states, shape]
        rfl
      · rw [pending, Machine.Configuration.situation, queue]
        rfl

end Concludes

/-- The payloads of tokens stay plain data whatever observers do. -/
def PayloadsStay
    (deliver : Deliver ω)
    (table : Table)
    (start : Frame ω)
    (tokens : List Token) :
    Prop :=
  ∀ name event moment,
    Callback deliver (.table table) start name event moment →
      ∀ token ∈ tokens,
        moment.store.IsPlain token.value →
          (frameAfter (deliver name event) moment).store.IsPlain token.value

theorem Confined.payloadsStay
    {start : Frame ω}
    (confined : Confined deliver (.table table) start)
    (tokens : List Token) :
    PayloadsStay deliver table start tokens := by
  intro name event moment callback token _ plain
  rw [confined.store_eq callback]
  exact plain

/-- The machine meets no token but those that it is given. -/
theorem attended_of_tokens
    {start : Frame ω}
    {tokens : List Token}
    (undisturbed : Undisturbed deliver (.table table) start)
    (ends : NotificationsEnd deliver (.table table) start)
    (stay : PayloadsStay deliver table start tokens) :
    Attended deliver table start (Machine.begin table tokens)
      (· ∈ tokens) where
  undisturbed := undisturbed
  ends := ends
  meets := by
    intro events reached steps token meets
    obtain ⟨consumed, rfl, framed⟩ := steps.consumes
    rcases meets with ⟨state, member⟩ | lookahead
    · exact List.mem_append_left _ (framed state token member)
    · exact List.mem_append_right _ (List.mem_of_head? lookahead)
  keeps := stay

section Start

variable
  {tokens : List Token}
  {met : Token → Prop}
  {frame : Frame ω}

/-- A loaded parser begins where the machine begins. -/
theorem begun_stands
    (orderly : table.Orderly)
    (loaded : frame.parser.Loaded table (tokens.map .token))
    (attended :
      Attended deliver table frame.begun (Machine.begin table tokens) met)
    (plain : ∀ token, met token → frame.store.IsPlain token.value) :
    Stands met (Machine.begin table tokens) frame.begun where
  situation := by
    simp only [Frame.situation, Frame.begun, Parser.situation, loaded.states,
      loaded.symbols, loaded.pending]
    rfl
  constants := ⟨orderly.initial, by simp [Machine.begin]⟩
  meets := attended.meets _ _ .first
  plain := plain

/-- A run of a loaded parser concludes as the machine does. -/
theorem start_concludes
    (orderly : table.Orderly)
    (loaded : frame.parser.Loaded table (tokens.map .token))
    (unused : frame.parser.ran = false)
    (unaccepted : frame.parser.accepted = false)
    (attended :
      Attended deliver table frame.begun (Machine.begin table tokens) met)
    (plain : ∀ token, met token → frame.store.IsPlain token.value)
    (granted : Nat) :
    Concludes
      (Machine.run table granted (Machine.begin table tokens))
      (start deliver granted frame) := by
  rw [start_begins loaded.isLoaded unused, loaded.held]
  exact drive_concludes orderly attended granted .start .first
    (begun_stands orderly loaded attended plain) unaccepted

/-- An observer takes down what the machine lists. -/
theorem start_records
    {β : Type}
    {observer : String}
    {note : Event → List β}
    {record : ω → List β}
    (orderly : table.Orderly)
    (loaded : frame.parser.Loaded table (tokens.map .token))
    (unused : frame.parser.ran = false)
    (attended :
      Attended deliver table frame.begun (Machine.begin table tokens) met)
    (plain : ∀ token, met token → frame.store.IsPlain token.value)
    (records :
      Records deliver (.table table) frame.begun observer note record)
    (granted : Nat) :
    record (frameAfter (start deliver granted) frame).world =
      record frame.world ++
        (Machine.run table granted
          (Machine.begin table tokens)).events.flatMap note := by
  simp only [frameAfter, start_begins loaded.isLoaded unused, loaded.held]
  exact drive_records orderly attended records granted .start .first
    (begun_stands orderly loaded attended plain)

end Start

/--
Runs refine the textbook machine.

A run concludes after any number of turns as the machine does after as many steps,
with the machine's stacks and its queue.  It accepts, refuses a token, finds the
table at fault, or goes on without an end, just if the machine does, and a refusal
names the state on top and the first token that is pending.
-/
theorem run_refines_machine
    {tokens : List Token}
    {frame : Frame ω}
    (orderly : table.Orderly)
    (loaded : frame.parser.Loaded table (tokens.map .token))
    (unused : frame.parser.ran = false)
    (unaccepted : frame.parser.accepted = false)
    (plain : ∀ token ∈ tokens, frame.store.IsPlain token.value)
    (undisturbed : Undisturbed deliver (.table table) frame.begun)
    (ends : NotificationsEnd deliver (.table table) frame.begun)
    (stay : PayloadsStay deliver table frame.begun tokens) :
    (∀ granted,
      Concludes
        (Machine.run table granted (Machine.begin table tokens))
        (start deliver granted frame)) ∧
    ((∃ granted after,
      start deliver granted frame = .ok () after ∧
        after.parser.accepted = true) ↔
      ∃ state, Machine.Ends table tokens (.accepted state)) ∧
    ((∃ granted state token expected after,
      start deliver granted frame =
        .error (.fault (.unexpectedToken state token expected)) after) ↔
      ∃ state token, Machine.Ends table tokens (.refused state token)) ∧
    (∀ granted state token expected after,
      start deliver granted frame =
          .error (.fault (.unexpectedToken state token expected)) after →
        after.parser.states.head? = some state ∧
          ∃ first rest,
            after.parser.pending = first :: rest ∧
              token = after.store.resolve first) ∧
    ((∃ granted defect after,
      start deliver granted frame =
        .error (.fault (.malformedTable defect)) after) ↔
      ∃ defect, Machine.Ends table tokens (.stuck defect)) ∧
    ((∀ granted, ∃ after,
      start deliver granted frame = .error .outOfSteps after) ↔
      ∀ verdict, ¬ Machine.Ends table tokens verdict) := by
  have concludes :=
    start_concludes orderly loaded unused unaccepted
      (attended_of_tokens undisturbed ends stay) plain
  refine ⟨concludes, ?_, ?_, ?_, ?_, ?_⟩
  · simp only [Machine.ends_iff, (concludes _).accepted_iff]
    exact exists_comm
  · simp only [Machine.ends_iff, (concludes _).refused_iff]
    constructor
    · rintro ⟨granted, state, token, decided⟩
      exact ⟨state, token, granted, decided⟩
    · rintro ⟨state, token, granted, decided⟩
      exact ⟨granted, state, token, decided⟩
  · intro granted state token expected after refused
    have concluded := concludes granted
    rw [refused] at concluded
    exact concluded.refused_at
  · simp only [Machine.ends_iff, (concludes _).stuck_iff]
    exact exists_comm
  · simp only [Machine.ends_iff, (concludes _).unfinished_iff]
    constructor
    · rintro unfinished verdict ⟨granted, decided⟩
      rw [unfinished granted] at decided
      cases decided
    · intro endless granted
      cases decided :
          (Machine.run table granted (Machine.begin table tokens)).verdict with
      | none => rfl
      | some verdict => exact (endless verdict ⟨granted, decided⟩).elim

open Grammar in
theorem nullable_orderly :
    Nullable.table.Orderly where
  initial := rfl
  actions := by decide
  gotos := by decide
  diagnosis := rfl

open Grammar in
/-- A verbose parser with an observer comes through an empty reduction as the machine does. -/
theorem run_refines_machine_nullable :
    Nullable.table.Orderly ∧
      ∃ granted after,
        start (logging "log") granted
            (.fresh Nullable.table
              ([Token.plain "a" (.list [.int 1, .text "x"]),
                .endOfInput].map .token)
              ["log"] []) =
            .ok () after ∧
          after.parser.accepted = true := by
  refine ⟨nullable_orderly, ?_⟩
  have refines :=
    run_refines_machine nullable_orderly
      (Frame.fresh_loaded Nullable.table
        ([Token.plain "a" (.list [.int 1, .text "x"]),
          .endOfInput].map .token)
        ["log"] ([] : List Event))
      rfl rfl
      (by
        intro token member
        rcases List.mem_cons.mp member with rfl | member
        · rfl
        · rw [List.mem_singleton.mp member]
          rfl)
      (logging_confined "log" _ _).undisturbed
      (logging_notificationsEnd "log" _ _ (by
        intro listener member
        exact ⟨"log", List.mem_singleton.mp member⟩))
      (by
        intro name event moment callback token _ plain
        rw [(logging_confined "log" _ _).store_eq callback]
        exact plain)
  apply refines.2.1.mpr
  exact ⟨.int 3, (Machine.ends_iff _ _ _).mpr ⟨5, rfl⟩⟩

end Run

end ShiftReduce
