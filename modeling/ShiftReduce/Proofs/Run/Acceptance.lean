import ShiftReduce.Grammar.Single
import ShiftReduce.Proofs.Run.Constancy
import ShiftReduce.Proofs.Run.Halting
import ShiftReduce.Proofs.Run.Steady
import ShiftReduce.Proofs.Table.Rows

namespace ShiftReduce

/-!
# What is left when the input is accepted

A parser does not look at its symbols when it accepts.  That only the start symbol is left
then is due to the shape of its table: nothing leads back to the initial state, and nothing
leads to a state with an acceptance but one goto from the initial state
(`Table.Augmented`).  The stacks of a run make up a path through the table, so a path that
ends in such a state has come there from the bottom in one step
(`Table.Augmented.path_accepting`).

A run that ends in any other way marks nothing as accepted (`Run.Undisturbed.drive_error`).
-/

namespace Table

variable
  {table : Table}
  {store : Store}

/-- The one way into a state is the goto from the initial state by a non-terminal. -/
structure EnteredBy
    (table : Table)
    (store : Store)
    (head : NonTerminal)
    (state : Value) :
    Prop where
  entered :
    ∃ target,
      table.Connects store table.initial (.nonterminal head) target ∧
        store.same target state = .ok true
  only :
    ∀ source symbol target,
      table.HasState source →
        table.Connects store source symbol target →
        store.same target state = .ok true →
          store.same source table.initial = .ok true ∧
            symbol = .nonterminal head

/--
No way leads to the initial state, and the one way into a state with an acceptance is a goto
from the initial state.  States count as the same if they are equal.
-/
structure Augmented
    (table : Table)
    (store : Store) :
    Prop where
  initial :
    ∀ source symbol target,
      table.HasState source →
        table.Connects store source symbol target →
          store.same target table.initial = .ok false
  accepting :
    ∀ state kind,
      table.HasState state →
        table.action store state (.text kind) = .ok (.action (.accept .direct)) →
          ∃ head, table.EnteredBy store head state

/-- A path that ends in a state with an acceptance has come there in one step. -/
theorem Augmented.path_accepting
    (augmented : table.Augmented store)
    {state : Value}
    {below : List Value}
    {symbols : List Symbol}
    {kind : String}
    (path : table.Path store (state :: below) symbols)
    (constant : store.IsConstant state)
    (entry :
      table.action store state (.text kind) = .ok (.action (.accept .direct))) :
    ∃ head,
      below = [table.initial] ∧
        symbols = [.nonterminal head, Parser.bottomMarker] ∧
        table.Connects store table.initial (.nonterminal head) state := by
  have known := path.hasState List.mem_cons_self
  obtain ⟨head, sole⟩ := augmented.accepting state kind known entry
  cases path with
  | bottom =>
      obtain ⟨target, edge, isInitial⟩ := sole.entered
      rw [augmented.initial _ _ target .initial edge] at isInitial
      cases isInitial
  | @push source _ symbol states symbols path edge =>
      have sourceKnown := path.hasState List.mem_cons_self
      obtain ⟨fromInitial, rfl⟩ :=
        sole.only source symbol state sourceKnown edge (Store.same_self constant)
      -- The state below equals the initial one, to which nothing leads: it is the bottom.
      cases path with
      | bottom => exact ⟨head, rfl, rfl, edge⟩
      | @push origin _ _ _ _ path earlier =>
          have originKnown := path.hasState List.mem_cons_self
          rw [augmented.initial origin _ source originKnown earlier] at fromInitial
          cases fromInitial

end Table

/-- An acceptance leaves the situation as it is. -/
theorem Situation.Moves.eq_of_accept
    {state : Value}
    {situation next : Situation}
    (moved : Situation.Moves (.accept state) situation next) :
    next = situation := by
  cases moved
  rfl

/-- An action that breaks off marks nothing as accepted. -/
theorem Parser.broken_accepted
    {table : Table}
    {store : Store}
    {situation : Situation}
    {chosen : Decision}
    {parser after : Parser}
    {cause : Fault}
    (sanctioned : situation.Sanctions table store chosen)
    (same : parser.situation = situation)
    (broken : commit chosen parser = .error cause after) :
    after.accepted = parser.accepted := by
  subst same
  cases sanctioned with
  | @shift state token next kind top lookahead named entry =>
      obtain ⟨rest, queue⟩ := List.head?_eq_some_iff.mp lookahead
      cases token with
      | token carried =>
          rw [commit_shift queue] at broken
          cases broken
      | _ =>
          cases broken
          rfl
  | @reduce state token exposed next kind production top lookahead named entry
      shallow exposes goto present =>
      have statesEnough : production.length ≤ parser.states.length :=
        Nat.le_of_lt (List.getElem?_eq_some_iff.mp exposes).1
      rw [commit_reduce statesEnough (Nat.le_of_lt shallow)] at broken
      cases headed : production.head with
      | nonterminal head =>
          rw [headed] at broken
          cases broken
      | _ =>
          rw [headed] at broken
          cases broken
          rfl
  | accept top lookahead named entry => cases broken

namespace Run

variable
  {ω : Type}
  {deliver : Deliver ω}
  {table : Table}
  {start before frame after : Frame ω}
  {halt : Halt}

namespace Undisturbed

/-- Nothing is accepted in the course of a run that goes on. -/
theorem reaches_accepted
    (undisturbed : Undisturbed deliver (.table table) start)
    (reaches : Reaches deliver (.table table) start frame) :
    frame.parser.accepted = start.parser.accepted := by
  induction reaches with
  | start => rfl
  | @turn token rest before after reaches lookahead turned inductionHypothesis =>
      have ends := turn_turned lookahead deliver (.table table)
      rw [turned] at ends
      cases ends with
      | performed performs goesOn =>
          have accepted := accepted_of_performs undisturbed reaches performs
          rw [← goesOn] at accepted
          exact accepted.trans inductionHypothesis

/-- A run that halts leaves the mark of acceptance as it was. -/
theorem halts_accepted
    (undisturbed : Undisturbed deliver (.table table) start)
    (reaches : Reaches deliver (.table table) start before)
    (halts : Halts deliver (.table table) before halt after) :
    after.parser.accepted = before.parser.accepted := by
  cases halts with
  | exhausted => rfl
  | unselected => rfl
  | undecided lookahead selected prints => rw [prints.parser]
  | unshown prints => rw [prints.parser]
  | reducedUnshown performs goesOn =>
      rw [accepted_of_performs undisturbed reaches performs, goesOn]
  | unheard decides interrupted =>
      have spares := undisturbed.notify_spares reaches decides
      rw [frameAfter_of_error interrupted] at spares
      exact spares.accepted
  | raised decides interrupted =>
      have spares := undisturbed.notify_spares reaches decides
      rw [frameAfter_of_error interrupted] at spares
      exact spares.accepted
  | broken decides notified broken =>
      have spares := undisturbed.notify_spares reaches decides
      rw [frameAfter_of_ok notified] at spares
      rw [← spares.accepted]
      exact Parser.broken_accepted decides.sanctioned spares.situation broken

/-- A run that ends without an acceptance leaves the mark of acceptance as it was. -/
theorem drive_error
    (undisturbed : Undisturbed deliver (.table table) start)
    {granted : Nat}
    (ended : drive deliver (.table table) granted start = .error halt after) :
    after.parser.accepted = start.parser.accepted := by
  rcases drive_halts .start ended with ⟨_, reaches⟩ | ⟨last, reaches, halts⟩
  · exact undisturbed.reaches_accepted reaches
  · exact
      (undisturbed.halts_accepted reaches halts).trans
        (undisturbed.reaches_accepted reaches)

end Undisturbed

/-- A run that returns has come over a path to a state with an acceptance. -/
theorem drive_ok_path
    {tokens : List Value}
    {granted : Nat}
    (loaded : frame.parser.Loaded table tokens)
    (constants : table.ConstantStates frame.store)
    (undisturbed : Undisturbed deliver (.table table) frame.begun)
    (tuples : TuplesStay deliver (.table table) frame.begun)
    (ended : drive deliver (.table table) granted frame.begun = .ok () after) :
    ∃ state below kind,
      after.parser.states = state :: below ∧
        after.parser.accepted = true ∧
        table.Path frame.store (state :: below) after.parser.symbols ∧
        table.action frame.store state (.text kind) =
          .ok (.action (.accept .direct)) := by
  obtain ⟨before, state, reaches, performs⟩ := drive_accepts .start ended
  have answers : table.SameAnswers before.store frame.store :=
    (tuples.sameAnswers constants reaches).symm
  have onPath :=
    tuples.onPath undisturbed constants (onPath_of_loaded loaded) reaches
  have path := Table.Path.transfer onPath answers
  obtain ⟨sanctioned, moved⟩ := undisturbed.moves reaches performs
  have accepted : after.parser.accepted = true :=
    accepted_of_performs undisturbed reaches performs
  rw [← moved.eq_of_accept] at path
  rw [← moved.eq_of_accept] at sanctioned
  cases sanctioned with
  | @accept _ _ kind top lookahead named entry =>
      obtain ⟨below, stack⟩ := List.head?_eq_some_iff.mp top
      rw [stack] at path
      have known := path.hasState List.mem_cons_self
      exact
        ⟨state, below, kind, stack, accepted, path,
          ((answers state known).1 kind).trans entry⟩

/--
A parser that accepts is left with the start symbol alone, and with the state that the table
goes to by it from the initial state; any other end of a run leaves no start symbol.

This takes a table with constant states in which nothing leads back to the initial state and
nothing but one of its gotos leads to a state with an acceptance, and observers that leave
the parse and the tuples in the store alone.
-/
theorem acceptance_leaves_start_symbol
    {tokens : List Value}
    (loaded : frame.parser.Loaded table tokens)
    (unaccepted : frame.parser.accepted = false)
    (constants : table.ConstantStates frame.store)
    (augmented : table.Augmented frame.store)
    (undisturbed : Undisturbed deliver (.table table) frame.begun)
    (tuples : TuplesStay deliver (.table table) frame.begun)
    (granted : Nat) :
    (∀ after,
      Run.start deliver granted frame = .ok () after →
        ∃ head target kind,
          table.goto frame.store table.initial (.nonterminal head) = .ok target ∧
            target.isNone = false ∧
            table.action frame.store target (.text kind) =
              .ok (.action (.accept .direct)) ∧
            after.parser.path = [table.initial, target] ∧
            after.parser.recognised = [.nonterminal head] ∧
            after.parser.start? = some (.nonterminal head)) ∧
    ∀ halt after,
      Run.start deliver granted frame = .error halt after →
        after.parser.start? = none := by
  constructor
  · intro after ended
    have driven := drive_of_start_ok ended
    rw [loaded.held] at driven
    obtain ⟨state, below, kind, stack, accepted, path, entry⟩ :=
      drive_ok_path loaded constants undisturbed tuples driven
    have known := path.hasState List.mem_cons_self
    obtain ⟨head, rfl, symbols, edge⟩ :=
      augmented.path_accepting path (constants.states state known) entry
    cases edge with
    | nonterminal goto present =>
        refine ⟨head, state, kind, goto, present, entry, ?_, ?_, ?_⟩
        · rw [Parser.path, stack]
          rfl
        · rw [Parser.recognised, symbols]
          rfl
        · rw [Parser.start?, accepted, symbols]
          rfl
  · intro halt after ended
    have unmarked : after.parser.accepted = false := by
      rcases start_cases deliver granted frame with
          ⟨cause, refused, _⟩ | ⟨_, begins⟩
      · rw [refused] at ended
        cases ended
        exact unaccepted
      · rw [begins, loaded.held] at ended
        exact (undisturbed.drive_error ended).trans unaccepted
    rw [Parser.start?, unmarked]
    rfl

section Spellings

open Grammar

/--
A table for one letter whose states are a truth value, no value and a tuple, filed under
equals of the first and the last.
-/
def spelledTable : Table where
  identity := 0
  actions :=
    [⟨.int 0, .text "a", .action (.shift .direct .none)⟩,
      ⟨.none, .text "$", .action (.reduce .direct (.production Single.letter))⟩,
      ⟨.shared .tuple 1, .text "$", .action (.accept .direct)⟩]
  gotos := [⟨.int 0, .nonterminal Single.start, .shared .tuple 0⟩]
  initial := .bool false
  diagnosis := .computed

/-- A parser about to read that letter. -/
def spelledFrame : Frame (List Event) :=
  { Frame.fresh spelledTable
      [.token (.plain "a" .none), .token .endOfInput] ["log"] [] with
    store := Table.twins }

theorem spelled_state
    {state : Value}
    (known : spelledTable.HasState state) :
    state ∈ [.bool false, .none, .shared .tuple 0] := by
  cases known with
  | initial => simp [spelledTable]
  | shifted member entry =>
      simp only [spelledTable, List.mem_cons, List.not_mem_nil, or_false] at member
      rcases member with rfl | rfl | rfl <;> cases entry
      simp
  | gone member =>
      simp only [spelledTable, List.mem_singleton] at member
      simp [member]

theorem spelled_constants :
    spelledTable.ConstantStates Table.twins where
  states := by
    intro state known
    have listed := spelled_state known
    simp only [List.mem_cons, List.not_mem_nil, or_false] at listed
    rcases listed with rfl | rfl | rfl <;> rfl
  cells := by
    intro cell member
    simp only [spelledTable, List.cons_append, List.nil_append, List.mem_cons,
      List.not_mem_nil, or_false] at member
    rcases member with rfl | rfl | rfl | rfl <;> exact ⟨rfl, nofun⟩

/-- Tokens lead to no value, and only the start symbol leads to the tuple. -/
theorem spelled_edge
    {source target : Value}
    {symbol : Symbol}
    (known : spelledTable.HasState source)
    (edge : spelledTable.Connects Table.twins source symbol target) :
    target = .none ∨
      source = .bool false ∧
        symbol = .nonterminal Single.start ∧
        target = .shared .tuple 0 := by
  cases edge with
  | token entry =>
      obtain missing | ⟨cell, member, same⟩ := Table.action_mem entry
      · cases missing
      · simp only [spelledTable, List.mem_cons, List.not_mem_nil, or_false] at member
        rcases member with rfl | rfl | rfl <;> cases same
        exact .inl rfl
  | nonterminal goto present =>
      obtain missing | ⟨cell, member, rfl, filed⟩ :=
        spelled_constants.goto_isFor (spelled_constants.states source known) goto
      · exact .inl missing
      · cases List.mem_singleton.mp member
        obtain ⟨sameState, sameHead⟩ := Bool.and_eq_true_iff.mp filed
        have heads := (Value.equals_label_iff rfl rfl).mp sameHead
        cases heads
        have listed := spelled_state known
        simp only [List.mem_cons, List.not_mem_nil, or_false] at listed
        rcases listed with rfl | rfl | rfl
        · exact .inr ⟨rfl, rfl, rfl⟩
        · cases sameState
        · cases sameState

/-- There is an acceptance in the tuple only. -/
theorem spelled_accepting
    {state : Value}
    {kind : String}
    (known : spelledTable.HasState state)
    (entry :
      spelledTable.action Table.twins state (.text kind) =
        .ok (.action (.accept .direct))) :
    state = .shared .tuple 0 := by
  obtain missing | ⟨cell, member, same, filed⟩ :=
    spelled_constants.action_isFor (spelled_constants.states state known) entry
  · cases missing
  · simp only [spelledTable, List.mem_cons, List.not_mem_nil, or_false] at member
    rcases member with rfl | rfl | rfl <;> cases same
    obtain ⟨sameState, _⟩ := Bool.and_eq_true_iff.mp filed
    have listed := spelled_state known
    simp only [List.mem_cons, List.not_mem_nil, or_false] at listed
    rcases listed with rfl | rfl | rfl
    · cases sameState
    · cases sameState
    · rfl

theorem spelled_augmented :
    spelledTable.Augmented Table.twins where
  initial := by
    intro source symbol target known edge
    rcases spelled_edge known edge with rfl | ⟨_, _, rfl⟩ <;> rfl
  accepting := by
    intro state kind known entry
    cases spelled_accepting known entry
    refine ⟨Single.start, ⟨.shared .tuple 0, .nonterminal rfl rfl, rfl⟩, ?_⟩
    intro source symbol target sourceKnown edge same
    rcases spelled_edge sourceKnown edge with rfl | ⟨rfl, rfl, _⟩
    · cases same
    · exact ⟨rfl, rfl⟩

/-- Reading the letter leaves the start symbol, although states are looked up by equals. -/
theorem acceptance_leaves_start_of_letter :
    ∃ after,
      Run.start (logging "log") 3 spelledFrame = .ok () after ∧
        after.parser.path = [.bool false, .shared .tuple 0] ∧
        after.parser.recognised = [.nonterminal Single.start] ∧
        after.parser.start? = some (.nonterminal Single.start) := by
  have confined :=
    logging_confined "log" (.table spelledTable) spelledFrame.begun
  have left :=
    acceptance_leaves_start_symbol ⟨rfl, rfl, rfl, rfl⟩ rfl spelled_constants
      spelled_augmented confined.undisturbed confined.tuplesStay 3
  have halts : halt? (Run.start (logging "log") 3) spelledFrame = none := by
    cbv
  cases ends : Run.start (logging "log") 3 spelledFrame with
  | error halt after =>
      rw [halt?_of_error ends] at halts
      cases halts
  | ok result after =>
      obtain ⟨head, target, kind, goto, present, entry, path, symbols, start⟩ :=
        left.1 after ends
      obtain missing | ⟨_, isLetter, rfl⟩ :=
        spelled_edge .initial (.nonterminal goto present)
      · rw [missing] at present
        cases present
      · rw [isLetter] at symbols start
        exact ⟨after, rfl, path, symbols, start⟩

end Spellings

end Run

end ShiftReduce
