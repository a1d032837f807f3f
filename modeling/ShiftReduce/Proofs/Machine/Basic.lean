import ShiftReduce.Proofs.Parser.Situation
import ShiftReduce.Proofs.Table.Orderly

namespace ShiftReduce

/-- The rule that an event tells of, if it tells of any. -/
def Event.rules :
    Event → List Value
  | .reduce _ production => [production]
  | _ => []

namespace Machine

/-!
# The textbook machine

A machine with a single stack of frames, each of which pairs a symbol with the
state that it led to.  The machine reduces by popping frames one at a time, as many
as the rule is long, and only then consults the table about the state that it has
come down to.  It knows no observers, prints nothing and takes no heed of a store.

What it does in a configuration is `Machine.step`, and `Machine.run` takes a number
of steps.  Events are listed so that observers of a parser can be held against them.
-/

/-- A frame: a symbol, and the state that it led to. -/
abbrev Framed := Value × Symbol

/-- The frames above the initial state, top first, and the tokens to come. -/
structure Configuration where
  initial : Value
  frames : List Framed
  pending : List Token

namespace Configuration

/-- The state on top. -/
def top
    (configuration : Configuration) :
    Value :=
  match configuration.frames with
  | [] => configuration.initial
  | (state, _) :: _ => state

/-- A frame less, unless only the bottom is left. -/
def pop?
    (configuration : Configuration) :
    Option Configuration :=
  match configuration.frames with
  | [] => none
  | _ :: frames => some { configuration with frames := frames }

/-- A number of frames less, popped one at a time. -/
def popAll? :
    Nat → Configuration → Option Configuration
  | 0, configuration => some configuration
  | depth + 1, configuration => configuration.pop?.bind (popAll? depth)

/-- A frame more. -/
def push
    (configuration : Configuration)
    (state : Value)
    (symbol : Symbol) :
    Configuration :=
  { configuration with frames := (state, symbol) :: configuration.frames }

/-- The configuration below a number of frames. -/
def drop
    (configuration : Configuration)
    (depth : Nat) :
    Configuration :=
  { configuration with frames := configuration.frames.drop depth }

/-- The same configuration in two stacks and a queue. -/
def situation
    (configuration : Configuration) :
    Situation where
  states := configuration.frames.map Prod.fst ++ [configuration.initial]
  symbols := configuration.frames.map Prod.snd ++ [Parser.bottomMarker]
  pending := configuration.pending.map .token

/-- Popping frames one at a time comes to an end unless there are too few. -/
theorem popAll?_eq
    (depth : Nat)
    (configuration : Configuration) :
    configuration.popAll? depth =
      if depth ≤ configuration.frames.length then
        some (configuration.drop depth)
      else
        none := by
  induction depth generalizing configuration with
  | zero =>
      rfl
  | succ depth inductionHypothesis =>
      rcases configuration with ⟨initial, frames, pending⟩
      cases frames with
      | nil =>
          rfl
      | cons framed frames =>
          simp only [popAll?, pop?, Option.bind_some, inductionHypothesis,
            List.length_cons, Nat.add_le_add_iff_right]
          rfl

theorem states_eq
    (configuration : Configuration) :
    ∃ below, configuration.situation.states = configuration.top :: below := by
  rcases configuration with ⟨initial, frames, pending⟩
  cases frames with
  | nil => exact ⟨_, rfl⟩
  | cons framed frames => exact ⟨_, rfl⟩

theorem situation_drop
    {configuration : Configuration}
    {depth : Nat}
    (shallow : depth ≤ configuration.frames.length) :
    (configuration.drop depth).situation =
      ⟨configuration.situation.states.drop depth,
        configuration.situation.symbols.drop depth,
        configuration.situation.pending⟩ := by
  simp only [situation, drop, Situation.mk.injEq, and_true]
  constructor
  · rw [List.drop_append_of_le_length (by simpa using shallow), List.map_drop]
  · rw [List.drop_append_of_le_length (by simpa using shallow), List.map_drop]

theorem exposed_eq
    {configuration : Configuration}
    {depth : Nat}
    (shallow : depth ≤ configuration.frames.length) :
    configuration.situation.states[depth]? =
      some (configuration.drop depth).top := by
  obtain ⟨below, shape⟩ := (configuration.drop depth).states_eq
  have dropped :
      configuration.situation.states.drop depth =
        (configuration.drop depth).top :: below := by
    rw [situation_drop shallow] at shape
    exact shape
  have first := congrArg List.head? dropped
  simpa using first

end Configuration

/-- The configuration in which the machine begins. -/
def begin
    (table : Table)
    (tokens : List Token) :
    Configuration :=
  ⟨table.initial, [], tokens⟩

/-- How the machine comes to its end. -/
inductive Verdict where
  | accepted (state : Value)
  | refused (state : Value) (token : Token)
  | stuck (defect : Defect)

/-- What becomes of a configuration: another one by way of an event, or the end. -/
inductive Outcome where
  | goesOn (event : Event) (next : Configuration)
  | ends (verdict : Verdict)

/-- Pop the body of a rule, and go to where its head leads from the state exposed. -/
def reduce
    (table : Table)
    (configuration : Configuration)
    (production : Production) :
    Outcome :=
  match configuration.popAll? production.length with
  | none =>
      .ends (.stuck
        (.tooDeep production configuration.frames.length configuration.top))
  | some popped =>
      match production.head, table.gotoAt? popped.top production.head with
      | .nonterminal head, some next =>
          .goesOn
            (.reduce configuration.top (.production production))
            (popped.push next (.nonterminal head))
      | _, _ => .ends (.stuck (.missingGoto production.head popped.top))

/-- Do what an entry of the table says about the first token to come. -/
def obey
    (table : Table)
    (configuration : Configuration)
    (token : Token)
    (rest : List Token) :
    Value → Outcome
  | .action (.shift .direct next) =>
      .goesOn
        (.shift configuration.top (.token token))
        { configuration.push next (.token token) with pending := rest }
  | .action (.reduce .direct (.production production)) =>
      reduce table configuration production
  | .action (.accept .direct) => .ends (.accepted configuration.top)
  | .action (.error .direct) => .ends (.refused configuration.top token)
  | other => .ends (.stuck (.unknownAction other configuration.top))

/-- Do what the table says about the top state and the first token to come. -/
def step
    (table : Table)
    (configuration : Configuration) :
    Outcome :=
  match configuration.pending with
  | [] => .ends (.stuck (.inputExhausted configuration.top))
  | token :: rest =>
      obey table configuration token rest
        (table.actionAt configuration.top token.kind)

theorem step_of_lookahead
    {configuration : Configuration}
    {token : Token}
    {rest : List Token}
    (queue : configuration.pending = token :: rest)
    (table : Table) :
    step table configuration =
      obey table configuration token rest
        (table.actionAt configuration.top token.kind) := by
  simp only [step, queue]

theorem step_of_nothing
    {configuration : Configuration}
    (queue : configuration.pending = [])
    (table : Table) :
    step table configuration =
      .ends (.stuck (.inputExhausted configuration.top)) := by
  simp only [step, queue]

/-- Where a number of steps has led, with the verdict if there is one by then. -/
structure Ending where
  verdict : Option Verdict
  configuration : Configuration
  events : List Event

/-- What observers hear when the machine comes to its end. -/
def Verdict.events :
    Verdict → List Event
  | .accepted state => [.accept state]
  | _ => []

/-- Take steps until there is a verdict, for as many steps as are granted. -/
def run
    (table : Table) :
    Nat → Configuration → Ending
  | 0, configuration => ⟨none, configuration, []⟩
  | granted + 1, configuration =>
      match step table configuration with
      | .goesOn event next =>
          let later := run table granted next
          { later with events := event :: later.events }
      | .ends verdict => ⟨some verdict, configuration, verdict.events⟩

/-- The machine comes from a first configuration to another by way of events. -/
inductive Steps
    (table : Table)
    (first : Configuration) :
    List Event → Configuration → Prop where
  | first :
      Steps table first [] first
  | step
      {before after : Configuration}
      {events : List Event}
      {event : Event}
      (steps : Steps table first events before)
      (stepped : step table before = .goesOn event after) :
      Steps table first (events ++ [event]) after

/-- All that a step which goes on can be: a shift, or a reduction with a goto. -/
theorem step_goesOn
    {table : Table}
    {before after : Configuration}
    {event : Event}
    (stepped : step table before = .goesOn event after) :
    ∃ token rest,
      before.pending = token :: rest ∧
        ((∃ next,
          table.actionAt before.top token.kind =
              .action (.shift .direct next) ∧
            event = .shift before.top (.token token) ∧
            after = { before.push next (.token token) with pending := rest }) ∨
        (∃ production head next,
          table.actionAt before.top token.kind =
              .action (.reduce .direct (.production production)) ∧
            production.length ≤ before.frames.length ∧
            production.head = .nonterminal head ∧
            table.gotoAt? (before.drop production.length).top
                (.nonterminal head) =
              some next ∧
            event = .reduce before.top (.production production) ∧
            after =
              (before.drop production.length).push next
                (.nonterminal head))) := by
  cases queue : before.pending with
  | nil =>
      rw [step_of_nothing queue] at stepped
      cases stepped
  | cons token rest =>
      refine ⟨token, rest, rfl, ?_⟩
      rw [step_of_lookahead queue] at stepped
      unfold obey at stepped
      split at stepped
      · next next entry =>
          cases stepped
          exact .inl ⟨next, entry, rfl, rfl⟩
      · next production entry =>
          unfold reduce at stepped
          rw [Configuration.popAll?_eq] at stepped
          by_cases shallow : production.length ≤ before.frames.length
          · simp only [shallow, if_true] at stepped
            split at stepped
            · next head next headed found =>
                cases stepped
                rw [headed] at found
                exact .inr
                  ⟨production, head, next, entry, shallow, headed, found, rfl,
                    rfl⟩
            · cases stepped
          · simp only [shallow, if_false] at stepped
            cases stepped
      · cases stepped
      · cases stepped
      · cases stepped

/-- A token is refused where the table has the error action for it. -/
theorem step_refused
    {table : Table}
    {configuration : Configuration}
    {state : Value}
    {token : Token}
    (refused : step table configuration = .ends (.refused state token)) :
    state = configuration.top ∧
      table.actionAt configuration.top token.kind = .action (.error .direct) ∧
      ∃ rest, configuration.pending = token :: rest := by
  cases queue : configuration.pending with
  | nil =>
      rw [step_of_nothing queue] at refused
      cases refused
  | cons lookahead rest =>
      rw [step_of_lookahead queue] at refused
      unfold obey at refused
      split at refused
      · cases refused
      · unfold reduce at refused
        split at refused
        · cases refused
        · split at refused
          · cases refused
          · cases refused
      · cases refused
      · next entry =>
          cases refused
          exact ⟨rfl, entry, rest, rfl⟩
      · cases refused

/-- A step takes notice of nothing in the queue but the lookahead. -/
theorem step_unread
    {table : Table}
    {before after : Configuration}
    {event : Event}
    {token : Token}
    {unread rest : List Token}
    (stepped : step table before = .goesOn event after)
    (queue : after.pending = unread ++ token :: rest) :
    ∃ read,
      before.pending = read ++ unread ++ token :: rest ∧
        ∀ other,
          step table
              { before with pending := read ++ unread ++ token :: other } =
            .goesOn event { after with pending := unread ++ token :: other } := by
  obtain ⟨lookahead, later, pending, shifts | reduces⟩ := step_goesOn stepped
  · obtain ⟨next, entry, rfl, rfl⟩ := shifts
    refine ⟨[lookahead], ?_, ?_⟩
    · rw [pending]
      exact congrArg (lookahead :: ·) queue
    · intro other
      change
        obey table ⟨before.initial, before.frames, _⟩ lookahead
            (unread ++ token :: other)
            (table.actionAt before.top lookahead.kind) =
          _
      rw [entry]
      rfl
  · obtain ⟨production, head, next, entry, shallow, headed, goto, rfl, rfl⟩ :=
      reduces
    refine ⟨[], queue, ?_⟩
    intro other
    obtain ⟨others, same⟩ :
        ∃ others, unread ++ token :: other = lookahead :: others := by
      have shape : lookahead :: later = unread ++ token :: rest :=
        pending.symm.trans queue
      cases unread with
      | nil =>
          cases shape
          exact ⟨other, rfl⟩
      | cons first following =>
          cases shape
          exact ⟨_, rfl⟩
    rw [List.nil_append, same]
    change
      obey table ⟨before.initial, before.frames, lookahead :: others⟩ lookahead
          others (table.actionAt before.top lookahead.kind) =
        _
    rw [entry]
    change
      table.gotoAt?
          (Configuration.drop { before with pending := lookahead :: others }
            production.length).top
          (.nonterminal head) =
        some next at goto
    simp only [obey, reduce, Configuration.popAll?_eq, shallow, if_true,
      headed, goto]
    rfl

namespace Configuration

/-- All states are constants. -/
def HasConstants
    (configuration : Configuration) :
    Prop :=
  configuration.initial.isConstant = true ∧
    ∀ framed ∈ configuration.frames, framed.1.isConstant = true

theorem HasConstants.top
    {configuration : Configuration}
    (constants : configuration.HasConstants) :
    configuration.top.isConstant = true := by
  rcases configuration with ⟨initial, frames, pending⟩
  cases frames with
  | nil => exact constants.1
  | cons framed frames => exact constants.2 framed List.mem_cons_self

theorem HasConstants.drop
    {configuration : Configuration}
    (constants : configuration.HasConstants)
    (depth : Nat) :
    (configuration.drop depth).HasConstants :=
  ⟨constants.1, fun framed member =>
    constants.2 framed (List.mem_of_mem_drop member)⟩

theorem HasConstants.push
    {configuration : Configuration}
    (constants : configuration.HasConstants)
    {state : Value}
    (constant : state.isConstant = true)
    (symbol : Symbol) :
    (configuration.push state symbol).HasConstants := by
  refine ⟨constants.1, ?_⟩
  intro framed member
  rcases List.mem_cons.mp member with first | other
  · rw [first]
    exact constant
  · exact constants.2 framed other

end Configuration

namespace Steps

variable
  {table : Table}
  {first last : Configuration}
  {events : List Event}

/-- The states of an orderly table are constants wherever they come up. -/
theorem constants
    (orderly : table.Orderly)
    (steps : Steps table first events last)
    (initially : first.HasConstants) :
    last.HasConstants := by
  induction steps with
  | first =>
      exact initially
  | @step before after _ _ steps stepped inductionHypothesis =>
      obtain ⟨token, rest, queue, shifts | reduces⟩ := step_goesOn stepped
      · obtain ⟨next, entry, _, rfl⟩ := shifts
        have proper := orderly.actionAt_proper before.top token.kind
        rw [entry] at proper
        exact inductionHypothesis.push proper _
      · obtain ⟨production, head, next, _, _, _, found, _, rfl⟩ := reduces
        exact (inductionHypothesis.drop _).push
          (orderly.gotoAt?_constant found) _

/-- The machine has consumed the first of its tokens, and has no others on its stack. -/
theorem consumes
    {tokens : List Token}
    (steps : Steps table (begin table tokens) events last) :
    ∃ consumed,
      consumed ++ last.pending = tokens ∧
        ∀ state token,
          (state, .token token) ∈ last.frames → token ∈ consumed := by
  induction steps with
  | first =>
      exact ⟨[], rfl, by simp [begin]⟩
  | @step before _ _ _ steps stepped inductionHypothesis =>
      obtain ⟨consumed, split, framed⟩ := inductionHypothesis
      obtain ⟨shifted, rest, queue, shifts | reduces⟩ := step_goesOn stepped
      · obtain ⟨next, _, _, rfl⟩ := shifts
        refine ⟨consumed ++ [shifted], ?_, ?_⟩
        · rw [← split, queue, List.append_assoc]
          rfl
        · intro state token member
          apply List.mem_append.mpr
          rcases List.mem_cons.mp member with pushed | below
          · cases pushed
            exact .inr List.mem_cons_self
          · exact .inl (framed state token below)
      · obtain ⟨production, head, next, _, _, _, _, _, rfl⟩ := reduces
        refine ⟨consumed, split, ?_⟩
        intro state token member
        rcases List.mem_cons.mp member with pushed | below
        · cases pushed
        · exact framed state token (List.mem_of_mem_drop below)

/-- The machine takes no notice of what stands after the lookahead that it has come to. -/
theorem unread
    {token : Token}
    {unread rest : List Token}
    (steps : Steps table first events last)
    (queue : last.pending = unread ++ token :: rest) :
    ∃ read,
      first.pending = read ++ unread ++ token :: rest ∧
        ∀ other,
          Steps table
            { first with pending := read ++ unread ++ token :: other }
            events
            { last with pending := unread ++ token :: other } := by
  induction steps generalizing unread with
  | first =>
      refine ⟨[], queue, ?_⟩
      intro other
      exact .first
  | step steps stepped inductionHypothesis =>
      obtain ⟨consumed, pending, same⟩ := step_unread stepped queue
      obtain ⟨read, firstPending, stepsSame⟩ := inductionHypothesis pending
      refine ⟨read ++ consumed, ?_, ?_⟩
      · rw [firstPending, List.append_assoc read consumed]
      · intro other
        rw [List.append_assoc read consumed]
        exact (stepsSame other).step (same other)

theorem trans
    {middle : Configuration}
    {later : List Event}
    (before : Steps table first events middle)
    (after : Steps table middle later last) :
    Steps table first (events ++ later) last := by
  induction after with
  | first =>
      simpa using before
  | step steps stepped inductionHypothesis =>
      rw [← List.append_assoc]
      exact inductionHypothesis.step stepped

theorem one
    {event : Event}
    (stepped : Machine.step table first = .goesOn event last) :
    Steps table first [event] last :=
  Steps.first.step stepped

/-- A run with enough steps granted goes on from where the machine comes to. -/
theorem run_from
    (steps : Steps table first events last)
    (granted : Nat) :
    run table (events.length + granted) first =
      { run table granted last with
        events := events ++ (run table granted last).events } := by
  induction steps generalizing granted with
  | first =>
      rw [List.length_nil, Nat.zero_add]
      rfl
  | @step before after events event steps stepped inductionHypothesis =>
      have unfolded :
          run table (granted + 1) before =
            { run table granted after with
              events := event :: (run table granted after).events } := by
        simp only [run, stepped]
      rw [List.length_append, List.length_singleton, Nat.add_assoc,
        Nat.add_comm 1 granted, inductionHypothesis, unfolded]
      simp only [List.append_assoc, List.singleton_append]

/-- A run with enough steps granted ends where the machine does. -/
theorem run_ends
    {verdict : Verdict}
    {granted : Nat}
    (steps : Steps table first events last)
    (ends : Machine.step table last = .ends verdict)
    (enough : events.length < granted) :
    run table granted first =
      ⟨some verdict, last, events ++ verdict.events⟩ := by
  obtain ⟨left, rfl⟩ := Nat.exists_eq_add_of_lt enough
  rw [Nat.add_assoc, steps.run_from]
  simp only [run, ends]

end Steps

/--
A run of the machine consists of the steps to its last configuration, of which
there are as many as were granted unless there is a verdict.
-/
theorem run_steps
    (table : Table)
    (granted : Nat)
    (first : Configuration) :
    ∃ events,
      Steps table first events (run table granted first).configuration ∧
        match (run table granted first).verdict with
        | none =>
            (run table granted first).events = events ∧
              events.length = granted
        | some verdict =>
            (run table granted first).events = events ++ verdict.events ∧
              step table (run table granted first).configuration =
                .ends verdict := by
  induction granted generalizing first with
  | zero =>
      exact ⟨[], .first, rfl, rfl⟩
  | succ granted inductionHypothesis =>
      unfold run
      cases stepped : step table first with
      | goesOn event next =>
          obtain ⟨events, steps, ends⟩ := inductionHypothesis next
          refine ⟨event :: events, (Steps.one stepped).trans steps, ?_⟩
          cases verdict : (run table granted next).verdict with
          | none =>
              rw [verdict] at ends
              simp [ends]
          | some reached =>
              rw [verdict] at ends
              simp [ends]
      | ends verdict =>
          exact ⟨[], .first, rfl, stepped⟩

/-- The machine comes to a verdict just where it comes to a configuration that has one. -/
theorem run_verdict_iff
    (table : Table)
    (first : Configuration)
    (verdict : Verdict) :
    (∃ granted, (run table granted first).verdict = some verdict) ↔
      ∃ events last,
        Steps table first events last ∧ step table last = .ends verdict := by
  constructor
  · rintro ⟨granted, decided⟩
    obtain ⟨events, steps, ends⟩ := run_steps table granted first
    rw [decided] at ends
    exact ⟨events, _, steps, ends.2⟩
  · rintro ⟨events, last, steps, ends⟩
    refine ⟨events.length + 1, ?_⟩
    rw [steps.run_ends ends (Nat.lt_succ_self _)]

end Machine

end ShiftReduce
