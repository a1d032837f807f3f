import ShiftReduce.Proofs.Parser.Refusal
import ShiftReduce.Proofs.Run.Constancy
import ShiftReduce.Proofs.Run.Halting
import ShiftReduce.Proofs.Run.Steady
import ShiftReduce.Proofs.Table.Expected
import ShiftReduce.Proofs.Table.Rows

namespace ShiftReduce

/-!
# Reports on refused tokens

A run that refuses a token reports the state that it is in, the token, and what the table
expects there.  The report agrees with what the table answers when it is consulted: the
refused token is none of those expected, and for each of these the parser would select an
action that is no error (`Run.refusals_agree_with_table`).

The observers may load other tables and tokens into the parser, as long as the states that
they put on the stack are constants too (`Run.StacksStayConstant`).
-/

/-- The state that carrying out a decision leads to. -/
def Decision.target? :
    Decision → Option Value
  | .shift _ _ next => some next
  | .reduce _ _ next => some next
  | .accept _ => none

namespace Parser

variable
  {decision : Decision}
  {parser after : Parser}

/-- Popping states puts none on the stack. -/
theorem popFrames_states
    {depth : Nat}
    (popped : popFrames depth parser = .ok () after) :
    after.states ⊆ parser.states := by
  induction depth generalizing parser with
  | zero =>
      cases popped
      exact List.Subset.refl _
  | succ depth inductionHypothesis =>
      rcases parser with
        ⟨registry, table, states, symbols, pending, accepted, ran, verbose⟩
      cases states with
      | nil => cases popped
      | cons state states =>
          cases symbols with
          | nil => cases popped
          | cons symbol symbols =>
              exact List.subset_cons_of_subset state (inductionHypothesis popped)

/-- Carrying out an action puts no state on the stack but the one that it leads to. -/
theorem commit_states
    (committed : commit decision parser = .ok () after) :
    ∀ state ∈ after.states,
      state ∈ parser.states ∨ decision.target? = some state := by
  rcases parser with
    ⟨registry, table, states, symbols, pending, accepted, ran, verbose⟩
  cases decision with
  | accept state =>
      cases committed
      exact fun state member => .inl member
  | shift state token next =>
      cases token with
      | token carried =>
          cases pending with
          | nil => cases committed
          | cons first rest =>
              cases committed
              intro state member
              rcases List.mem_cons.mp member with rfl | earlier
              · exact .inr rfl
              · exact .inl earlier
      | _ => cases committed
  | reduce state production next =>
      simp only [commit, bind, EStateM.bind] at committed
      split at committed
      · next popped =>
          cases head : production.head with
          | nonterminal carried =>
              rw [head] at committed
              cases committed
              intro state member
              rcases List.mem_cons.mp member with rfl | earlier
              · exact .inr rfl
              · exact .inl (popFrames_states popped earlier)
          | _ =>
              rw [head] at committed
              cases committed
      · cases committed

end Parser

/-- What a sanctioned action leads to is a state of the table. -/
theorem Situation.Sanctions.hasState
    {table : Table}
    {store : Store}
    {situation : Situation}
    {decision : Decision}
    {next : Value}
    (sanctioned : situation.Sanctions table store decision)
    (leads : decision.target? = some next) :
    table.HasState next := by
  cases sanctioned with
  | shift top lookahead named entry =>
      cases leads
      exact Table.hasState_of_action entry
  | reduce top lookahead named entry shallow exposes goto present =>
      cases leads
      exact Table.hasState_of_goto goto present
  | accept => cases leads

/-- What is consulted by its kind shows with that kind. -/
theorem Store.kind?_resolve
    (store : Store)
    {value : Value}
    {kind : String}
    (named : value.kind? = some kind) :
    (store.resolve value).kind? = some kind := by
  cases value with
  | token carried =>
      rw [store.resolve_token]
      exact named
  | action carried =>
      unfold resolve levels
      rw [Nat.succ_mul]
      cases carried with
      | reduce lineage production => cases production <;> exact named
      | _ => exact named
  | _ => cases named

/-- Kinds show as they are. -/
theorem Store.resolve_texts
    (store : Store)
    (kinds : List String) :
    (kinds.map Value.text).map store.resolve = kinds.map .text := by
  rw [List.map_map]
  exact List.map_congr_left fun kind _ => store.resolve_constant rfl

theorem Value.text_mem_texts
    {kind : String}
    {kinds : List String} :
    Value.text kind ∈ kinds.map Value.text ↔ kind ∈ kinds :=
  List.mem_map_of_injective fun _ _ => Value.text.inj

/-- A parser selects what its table says about the top state and the kind of a token. -/
theorem Parser.select_of_action
    {store : Store}
    {table : Table}
    {parser : Parser}
    {state lookahead action : Value}
    {below : List Value}
    {kind : String}
    (stack : parser.states = state :: below)
    (named : lookahead.kind? = some kind)
    (answered : table.action store state (.text kind) = .ok action) :
    parser.select store (.table table) lookahead =
      .ok ⟨table, state, lookahead, action⟩ := by
  rw [select, topState, stack, named]
  simp only [bind, Except.bind, answered, pure, Except.pure]

namespace Frame

variable {ω : Type}

/-- The states on a parser's stack are constants as things stand. -/
def HoldsConstants
    (frame : Frame ω) :
    Prop :=
  ∀ state ∈ frame.parser.states, frame.store.IsConstant state

theorem PrintsTo.holdsConstants
    {before after : Frame ω}
    (prints : before.PrintsTo after)
    (constants : before.HoldsConstants) :
    after.HoldsConstants := by
  rw [HoldsConstants, prints.parser, prints.store]
  exact constants

/--
A report on a refused token agrees with the parser that refused it, and with its table: the
state is the one on top of the stack, the token is the lookahead and is not expected, and for
every kind that is expected the parser would select an action that is no error.
-/
structure Reports
    (frame : Frame ω)
    (table : Table)
    (state token : Value)
    (expected : List Value) :
    Prop where
  onTop :
    ∃ top below,
      frame.parser.states = top :: below ∧
        state = frame.store.resolve top ∧
        frame.store.same state top = .ok true
  comesNext :
    ∃ first rest,
      frame.parser.pending = first :: rest ∧ token = frame.store.resolve first
  diagnosed : table.expected frame.store state = .ok expected
  unexpected :
    ∃ kind, token.kind? = some kind ∧ Value.text kind ∉ expected
  welcome :
    ∀ lookahead kind,
      lookahead.kind? = some kind →
        Value.text kind ∈ expected →
          ∃ selection,
            frame.parser.select frame.store (.table table) lookahead =
                .ok selection ∧
              Table.isWelcoming selection.action = true

end Frame

/-- A token is refused in a constant state only if the report on it agrees with the table. -/
theorem Parser.decision_reports
    {ω : Type}
    {table : Table}
    {before after : Frame ω}
    {lookahead state token : Value}
    {rest expected : List Value}
    {selection : Selection}
    {cause : Fault}
    (diagnosable : table.Diagnosable before.store)
    (constants : before.HoldsConstants)
    (prints : before.PrintsTo after)
    (queue : before.parser.pending = lookahead :: rest)
    (selected :
      before.parser.select before.store (.table table) lookahead =
        .ok selection)
    (refused : before.parser.decision before.store selection = .error cause)
    (settled :
      before.store.settle cause = .unexpectedToken state token expected) :
    after.Reports table state token expected := by
  obtain ⟨_, _, heldExpected, rfl, rfl, rfl, rfl⟩ :=
    Store.settle_refusal_inversion settled
  obtain ⟨isError, refusedToken⟩ := decision_refuses refused rfl
  obtain ⟨_, kind, sameTable, named, top, tableSelected, tokenSelected, entry⟩ :=
    select_inversion selected
  cases sameTable
  obtain ⟨below, stack⟩ := List.head?_eq_some_iff.mp top
  have constant : before.store.IsConstant selection.state :=
    constants selection.state (by rw [stack]; exact List.mem_cons_self)
  obtain ⟨kinds, computed, _, listed⟩ := diagnosable.expectedKinds constant
  have diagnosed :
      selection.table.diagnose before.store selection.state =
        .ok (kinds.map .text) := by
    rw [tableSelected, Table.diagnose, diagnosable.computed]
    exact computed
  obtain ⟨rfl, rfl, expectedDiagnosed⟩ :=
    refuseToken_inversion refusedToken ⟨_, diagnosed⟩
  rw [diagnosed] at expectedDiagnosed
  cases expectedDiagnosed
  rw [before.store.resolve_texts]
  constructor
  · refine ⟨selection.state, below, prints.parser ▸ stack, by rw [prints.store], ?_⟩
    rw [prints.store]
    exact Store.same_resolve constant
  · exact
      ⟨selection.token, rest, by rw [prints.parser, queue, tokenSelected],
        by rw [prints.store]⟩
  · rw [prints.store, Table.expected, diagnosable.computed]
    exact (diagnosable.expectedKinds_resolve constant).trans computed
  · refine ⟨kind, tokenSelected ▸ before.store.kind?_resolve named, ?_⟩
    rw [Value.text_mem_texts]
    intro member
    obtain ⟨other, answered, welcomed⟩ := listed kind
    rw [entry] at answered
    cases answered
    rw [isError] at welcomed
    cases welcomed.mp member
  · intro lookahead other otherNamed member
    obtain ⟨action, answered, welcomed⟩ := listed other
    rw [prints.parser, prints.store]
    exact
      ⟨_, select_of_action stack otherNamed answered,
        welcomed.mp (Value.text_mem_texts.mp member)⟩

namespace Run

variable
  {ω : Type}
  {deliver : Deliver ω}
  {table : Table}
  {start frame : Frame ω}

/-- No callback of a run puts a state on the stack that is no constant. -/
def StacksStayConstant
    (deliver : Deliver ω)
    (table : Value)
    (start : Frame ω) :
    Prop :=
  ∀ name event moment,
    Callback deliver table start name event moment →
      moment.HoldsConstants →
        (frameAfter (deliver name event) moment).HoldsConstants

theorem Confined.stacksStayConstant
    {table : Value}
    (confined : Confined deliver table start) :
    StacksStayConstant deliver table start := by
  intro name event moment callback constants
  obtain ⟨world, same⟩ := confined name event moment callback
  rw [same]
  exact constants

section Constants

variable
  (tuples : TuplesStay deliver (.table table) start)
  (constantly : StacksStayConstant deliver (.table table) start)
  (states : ∀ state, table.HasState state → start.store.IsConstant state)

include tuples constantly states

/-- Every action of a run leaves constants on the stack. -/
theorem performs_holdsConstants
    {before after : Frame ω}
    {decision : Decision}
    (reaches : Reaches deliver (.table table) start before)
    (constants : before.HoldsConstants)
    (performs : Performs deliver (.table table) before decision after) :
    after.HoldsConstants := by
  cases performs with
  | @intro shown told _ parser decides notified committed prints =>
      have heard :=
        notify_relates
          (fun earlier later => earlier.HoldsConstants → later.HoldsConstants)
          (fun _ => id) (fun first second => second ∘ first) constantly reaches decides
          (decides.printsTo.holdsConstants constants)
      have keeps :=
        notify_relates (fun earlier later => earlier.store.Keeps later.store)
          (fun frame => .refl frame.store)
          (fun first second => first.trans second) tuples reaches decides
      rw [frameAfter_of_ok notified] at heard keeps
      rw [decides.printsTo.store] at keeps
      refine prints.holdsConstants fun state member => ?_
      rcases Parser.commit_states committed state member with earlier | leads
      · exact heard state earlier
      · have known := decides.sanctioned.hasState leads
        exact
          ((tuples.reaches reaches).trans keeps).isConstant (states state known)

/-- Throughout a run there are constants on the stack. -/
theorem reaches_holdsConstants
    (initially : start.HoldsConstants)
    (reaches : Reaches deliver (.table table) start frame) :
    frame.HoldsConstants :=
  reaches.holds Frame.HoldsConstants
    (performs_holdsConstants tuples constantly states) initially

end Constants

/-- A run that refuses a token of its own accord reports what its table says about it. -/
theorem drive_reports
    {granted : Nat}
    {after : Frame ω}
    {state token : Value}
    {expected : List Value}
    (tuples : TuplesStay deliver (.table table) start)
    (constantly : StacksStayConstant deliver (.table table) start)
    (states : ∀ state, table.HasState state → start.store.IsConstant state)
    (initially : start.HoldsConstants)
    (diagnosable : table.Diagnosable start.store)
    (refused :
      drive deliver (.table table) granted start =
        .error (.fault (.unexpectedToken state token expected)) after) :
    (∃ name event moment,
      Callback deliver (.table table) start name event moment ∧
        deliver name event moment =
          .error (.fault (.unexpectedToken state token expected)) after) ∨
      after.Reports table state token expected := by
  have noRefusal :
      ∀ {store : Store} {cause : Fault},
        Fault.unexpectedToken state token expected = store.settle cause →
          cause.category = .parse := by
    intro store cause settled
    obtain ⟨_, _, _, rfl, _⟩ := Store.settle_refusal_inversion settled.symm
    rfl
  rcases drive_halts .start refused with ⟨endless, _⟩ | ⟨last, reaches, halts⟩
  · cases endless
  · generalize faulty : Halt.fault (.unexpectedToken state token expected) = halt
      at halts
    cases halts with
    | exhausted never => exact absurd (noRefusal (Halt.fault.inj faulty)) never
    | unselected failed =>
        have refusal := noRefusal (Halt.fault.inj faulty)
        exact absurd refusal (Parser.select_neverRefuses _ _ _ _ _ failed)
    | undecided lookahead selected prints failed =>
        have constants :=
          reaches_holdsConstants tuples constantly states initially reaches
        exact
          .inr
            (Parser.decision_reports
              (diagnosable.transfer (tuples.reaches reaches)) constants prints
              lookahead selected failed (Halt.fault.inj faulty).symm)
    | unshown => cases faulty
    | reducedUnshown => cases faulty
    | unheard => cases faulty
    | @raised decision shown moment _ name _ decides interrupted tells raised =>
        subst faulty
        exact
          .inl ⟨name, decision.event, moment, .intro reaches decides tells, raised⟩
    | broken decides notified failed =>
        have refusal := noRefusal (Halt.fault.inj faulty)
        exact absurd refusal (Parser.commit_neverRefuses failed)

/--
What a table expects in a state agrees with what it answers when it is consulted there, and
so does every report on a refused token.

The table may have been made of any cells with constant states and texts for kinds, some of
them for the same question; and any observers may be listening that put no other than
constant states on the stack, unless one of them raises a report of its own.
-/
theorem refusals_agree_with_table
    {store : Store}
    {identity : Nat}
    {actions gotos : List Cell}
    {initial : Value}
    (built :
      Table.build store identity actions gotos initial .computed = .ok table)
    (constants : ∀ cell ∈ actions, store.IsConstant cell.state)
    (kinds : ∀ cell ∈ actions, cell.column.isText = true)
    (states : ∀ state, table.HasState state → store.IsConstant state) :
    (∀ later,
      store.Keeps later →
        ∀ state,
          later.IsConstant state →
            ∃ kinds : List String,
              table.expected later state = .ok (kinds.map .text) ∧
                kinds.Pairwise (· < ·) ∧
                ∀ kind,
                  ∃ entry,
                    table.action later state (.text kind) = .ok entry ∧
                      (kind ∈ kinds ↔ Table.isWelcoming entry = true)) ∧
    ∀ (deliver : Deliver ω) (frame : Frame ω) (tokens : List Value),
      frame.parser.Loaded table tokens →
        store.Keeps frame.store →
        TuplesStay deliver (.table table) frame.begun →
        StacksStayConstant deliver (.table table) frame.begun →
          ∀ granted state token expected after,
            Run.start deliver granted frame =
                .error (.fault (.unexpectedToken state token expected)) after →
              (∃ name event moment,
                Callback deliver (.table table) frame.begun name event moment ∧
                  deliver name event moment =
                    .error (.fault (.unexpectedToken state token expected))
                      after) ∨
              after.Reports table state token expected := by
  have diagnosable := Table.diagnosable_of_build constants kinds built
  constructor
  · intro later keeps state constant
    have laterDiagnosable := diagnosable.transfer keeps
    obtain ⟨listed, computed, ordered, agrees⟩ :=
      laterDiagnosable.expectedKinds constant
    refine ⟨listed, ?_, ordered, agrees⟩
    rw [Table.expected, laterDiagnosable.computed]
    exact computed
  · intro deliver frame tokens loaded keeps tuples constantly granted state token
      expected after refused
    have initially : frame.begun.HoldsConstants := by
      intro top member
      change top ∈ frame.parser.states at member
      rw [loaded.states, List.mem_singleton] at member
      rw [member]
      exact keeps.isConstant (states table.initial .initial)
    rcases start_cases deliver granted frame with
        ⟨cause, ends, category, _⟩ | ⟨_, begins⟩
    · rw [ends] at refused
      cases refused
      cases category
    · rw [begins, loaded.held] at refused
      exact
        drive_reports tuples constantly
          (fun state known => keeps.isConstant (states state known)) initially
          (diagnosable.transfer keeps) refused

section Twins

/-- Cells for one state in two spellings, two of them for the same question. -/
def twinCells : List Cell :=
  [⟨.shared .tuple 0, .text "a", .action (.accept .direct)⟩,
    ⟨.shared .tuple 1, .text "b", .action (.accept .direct)⟩,
    ⟨.shared .tuple 1, .text "a", .action (.shift .direct (.shared .tuple 0))⟩,
    ⟨.shared .tuple 0, .text "c", .action (.error .direct)⟩]

/-- What is left of these cells in a table. -/
def twinTable : Table where
  identity := 0
  actions :=
    [⟨.shared .tuple 0, .text "a", .action (.shift .direct (.shared .tuple 0))⟩,
      ⟨.shared .tuple 1, .text "b", .action (.accept .direct)⟩,
      ⟨.shared .tuple 0, .text "c", .action (.error .direct)⟩]
  gotos := []
  initial := .shared .tuple 1
  diagnosis := .computed

/-- A parser about to read two letters with that table, the second of which it refuses. -/
def twinFrame : Frame (List Event) :=
  { Frame.fresh twinTable
      [.token (.plain "a" .none), .token (.plain "c" .none)] ["log"] [] with
    store := Table.twins }

theorem twinTable_states
    (state : Value)
    (known : twinTable.HasState state) :
    Table.twins.IsConstant state := by
  cases known with
  | initial => rfl
  | shifted member entry =>
      simp only [twinTable, List.mem_cons, List.not_mem_nil, or_false] at member
      rcases member with rfl | rfl | rfl <;> cases entry
      rfl
  | gone member => cases member

/-- In a state with two spellings, the welcome kinds of both are expected. -/
theorem refusal_agrees_with_twins :
    Table.build Table.twins 0 twinCells [] (.shared .tuple 1) .computed =
        .ok twinTable ∧
      ∃ after,
        Run.start (logging "log") 2 twinFrame =
            .error
              (.fault
                (.unexpectedToken (.tuple [.bool true, .text "a"])
                  (.token (.plain "c" .none)) [.text "a", .text "b"]))
              after ∧
          after.Reports twinTable (.tuple [.bool true, .text "a"])
            (.token (.plain "c" .none)) [.text "a", .text "b"] := by
  have built :
      Table.build Table.twins 0 twinCells [] (.shared .tuple 1) .computed =
        .ok twinTable :=
    rfl
  have halts :
      halt? (Run.start (logging "log") 2) twinFrame =
        some
          (.fault
            (.unexpectedToken (.tuple [.bool true, .text "a"])
              (.token (.plain "c" .none)) [.text "a", .text "b"])) := by
    cbv
  refine ⟨built, ?_⟩
  cases ends : Run.start (logging "log") 2 twinFrame with
  | ok result after =>
      rw [halt?_of_ok ends] at halts
      cases halts
  | error halt after =>
      rw [halt?_of_error ends] at halts
      cases halts
      have confined :=
        logging_confined "log" (.table twinTable) twinFrame.begun
      have agrees :=
        (refusals_agree_with_table built (by decide) (by decide)
          twinTable_states).2
          (logging "log") twinFrame _ ⟨rfl, rfl, rfl, rfl⟩ (.refl _)
          confined.tuplesStay confined.stacksStayConstant 2 _ _ _ after ends
      rcases agrees with ⟨name, event, moment, _, raised⟩ | reports
      · rw [logging_ok] at raised
        cases raised
      · exact ⟨after, rfl, reports⟩

end Twins

end Run

end ShiftReduce
