import ShiftReduce.Proofs.Parser.Situation
import ShiftReduce.Proofs.Table.Entry

namespace ShiftReduce

/-!
# Paths through the automaton of a table

A table is an automaton: shifts lead from state to state by tokens, gotos by
non-terminals (`Table.Connects`).  Stacks that make up a path from the initial
state (`Table.Path`) still do after every sanctioned action, and after one that
breaks off.

What a table answers may depend on what lies in the store.  A path stays one as
long as the answers about the states of the table stay (`Table.SameAnswers`).
-/

namespace Table

/-- The states that a table begins with or leads to. -/
inductive HasState
    (table : Table) :
    Value → Prop where
  | initial :
      HasState table table.initial
  | shifted
      {cell : Cell}
      {next : Value}
      (member : cell ∈ table.actions)
      (entry : cell.entry = .action (.shift .direct next)) :
      HasState table next
  | gone
      {cell : Cell}
      (member : cell ∈ table.gotos) :
      HasState table cell.entry

/-- A table gives the same answers about its states, whichever of two stores it draws on. -/
def SameAnswers
    (table : Table)
    (first second : Store) :
    Prop :=
  ∀ state,
    table.HasState state →
      (∀ kind : String,
        table.action second state (.text kind) =
          table.action first state (.text kind)) ∧
      ∀ head : NonTerminal,
        table.goto second state (.nonterminal head) =
          table.goto first state (.nonterminal head)

theorem SameAnswers.refl
    (table : Table)
    (store : Store) :
    table.SameAnswers store store :=
  fun _ _ => ⟨fun _ => rfl, fun _ => rfl⟩

theorem SameAnswers.symm
    {table : Table}
    {first second : Store}
    (same : table.SameAnswers first second) :
    table.SameAnswers second first := by
  intro state known
  obtain ⟨actions, gotos⟩ := same state known
  exact ⟨fun kind => (actions kind).symm, fun head => (gotos head).symm⟩

theorem SameAnswers.trans
    {table : Table}
    {first second third : Store}
    (before : table.SameAnswers first second)
    (after : table.SameAnswers second third) :
    table.SameAnswers first third := by
  intro state known
  obtain ⟨firstActions, firstGotos⟩ := before state known
  obtain ⟨secondActions, secondGotos⟩ := after state known
  exact ⟨fun kind => (secondActions kind).trans (firstActions kind),
    fun head => (secondGotos head).trans (firstGotos head)⟩

/-- What a table says to shift into is one of its states. -/
theorem hasState_of_action
    {table : Table}
    {store : Store}
    {state column next : Value}
    (entry :
      table.action store state column =
        .ok (.action (.shift .direct next))) :
    table.HasState next := by
  rcases action_mem entry with missing | ⟨cell, member, same⟩
  · simp at missing
  · exact .shifted member same

/-- What a table says to go to is one of its states. -/
theorem hasState_of_goto
    {table : Table}
    {store : Store}
    {state column next : Value}
    (entry : table.goto store state column = .ok next)
    (present : next.isNone = false) :
    table.HasState next := by
  rcases goto_mem entry with missing | ⟨cell, member, same⟩
  · subst missing
    simp [Value.isNone] at present
  · exact same ▸ .gone member

/-- A symbol leads from one state to another: a token by a shift, a non-terminal by a goto. -/
inductive Connects
    (table : Table)
    (store : Store) :
    Value → Symbol → Value → Prop where
  | token
      {source target : Value}
      {token : Token}
      (entry :
        table.action store source (.text token.kind) =
          .ok (.action (.shift .direct target))) :
      Connects table store source (.token token) target
  | nonterminal
      {source target : Value}
      {head : NonTerminal}
      (goto : table.goto store source (.nonterminal head) = .ok target)
      (present : target.isNone = false) :
      Connects table store source (.nonterminal head) target

/-- States and symbols, top first, that make up a path from the initial state. -/
inductive Path
    (table : Table)
    (store : Store) :
    List Value → List Symbol → Prop where
  | bottom :
      Path table store [table.initial] [Parser.bottomMarker]
  | push
      {source target : Value}
      {symbol : Symbol}
      {states : List Value}
      {symbols : List Symbol}
      (path : Path table store (source :: states) symbols)
      (edge : table.Connects store source symbol target) :
      Path table store (target :: source :: states) (symbol :: symbols)

/-- An edge stays an edge as long as the answers about its source stay. -/
theorem Connects.transfer
    {table : Table}
    {first second : Store}
    {source target : Value}
    {symbol : Symbol}
    (edge : table.Connects first source symbol target)
    (known : table.HasState source)
    (same : table.SameAnswers first second) :
    table.Connects second source symbol target := by
  cases edge with
  | token entry =>
      exact .token (((same source known).1 _).trans entry)
  | nonterminal goto present =>
      exact .nonterminal (((same source known).2 _).trans goto) present

/-- An edge leads to a state of the table. -/
theorem Connects.hasState
    {table : Table}
    {store : Store}
    {source target : Value}
    {symbol : Symbol}
    (edge : table.Connects store source symbol target) :
    table.HasState target := by
  cases edge with
  | token entry =>
      exact hasState_of_action entry
  | nonterminal goto present =>
      exact hasState_of_goto goto present

namespace Path

variable
  {table : Table}
  {store : Store}
  {states : List Value}
  {symbols : List Symbol}

/-- A path comes through states of the table only. -/
theorem hasState
    (path : table.Path store states symbols)
    {state : Value}
    (member : state ∈ states) :
    table.HasState state := by
  induction path with
  | bottom =>
      rw [List.mem_singleton.mp member]
      exact .initial
  | push path edge inductionHypothesis =>
      rcases List.mem_cons.mp member with isTarget | inRest
      · rw [isTarget]
        exact edge.hasState
      · exact inductionHypothesis inRest

/-- A path stays one as long as the table's answers stay. -/
theorem transfer
    {other : Store}
    (path : table.Path store states symbols)
    (same : table.SameAnswers store other) :
    table.Path other states symbols := by
  induction path with
  | bottom =>
      exact .bottom
  | push path edge inductionHypothesis =>
      exact .push inductionHypothesis
        (edge.transfer (path.hasState List.mem_cons_self) same)

/-- With the bottom marker, a path has as many symbols as states. -/
theorem length_eq
    (path : table.Path store states symbols) :
    states.length = symbols.length := by
  induction path with
  | bottom =>
      rfl
  | push path edge inductionHypothesis =>
      simpa using inductionHypothesis

/-- What is left of a path after pops that spare the bottom marker is a path. -/
theorem drop
    (path : table.Path store states symbols)
    (depth : Nat)
    (shallow : depth < symbols.length) :
    table.Path store (states.drop depth) (symbols.drop depth) := by
  induction path generalizing depth with
  | bottom =>
      have none : depth = 0 := by
        simpa using shallow
      subst none
      exact .bottom
  | push path edge inductionHypothesis =>
      cases depth with
      | zero =>
          exact .push path edge
      | succ depth =>
          exact inductionHypothesis depth (Nat.lt_of_succ_lt_succ shallow)

/-- The bottom marker stays below all other symbols. -/
theorem getLast_symbols
    (path : table.Path store states symbols) :
    symbols.getLast? = some Parser.bottomMarker := by
  induction path with
  | bottom =>
      rfl
  | @push source target symbol states symbols path edge inductionHypothesis =>
      cases symbols with
      | nil =>
          simp at inductionHypothesis
      | cons below rest =>
          simpa using inductionHypothesis

/-- The initial state stays below all other states. -/
theorem getLast_states
    (path : table.Path store states symbols) :
    states.getLast? = some table.initial := by
  induction path with
  | bottom =>
      rfl
  | push path edge inductionHypothesis =>
      simpa using inductionHypothesis

/-- Counted from the bottom, each symbol connects the states on its two sides. -/
theorem connects
    (path : table.Path store states symbols)
    {index : Nat}
    {symbol : Symbol}
    (found : (symbols.reverse.drop 1)[index]? = some symbol) :
    ∃ source target,
      states.reverse[index]? = some source ∧
        states.reverse[index + 1]? = some target ∧
        table.Connects store source symbol target := by
  induction path with
  | bottom =>
      simp at found
  | @push source target top states symbols path edge inductionHypothesis =>
      have sameLength := path.length_eq
      have heights :
          (symbols.reverse.drop 1).length = states.length := by
        simp only [List.length_drop, List.length_reverse]
        simp only [List.length_cons] at sameLength
        omega
      have spelled :
          ((top :: symbols).reverse.drop 1) =
            symbols.reverse.drop 1 ++ [top] := by
        rw [List.reverse_cons, List.drop_append_of_le_length]
        simp only [List.length_reverse, ← sameLength, List.length_cons]
        omega
      rw [spelled] at found
      rcases Nat.lt_or_ge index states.length with below | above
      · rw [List.getElem?_append_left (by omega)] at found
        obtain ⟨origin, goal, originAt, goalAt, connected⟩ := inductionHypothesis found
        have inside : index + 1 < (source :: states).reverse.length := by
          simp only [List.length_reverse, List.length_cons]
          omega
        refine ⟨origin, goal, ?_, ?_, connected⟩
        · rw [List.reverse_cons, List.getElem?_append_left (by omega)]
          exact originAt
        · rw [List.reverse_cons, List.getElem?_append_left inside]
          exact goalAt
      · rw [List.getElem?_append_right (by omega), heights] at found
        have atTop : index = states.length := by
          rcases Nat.lt_or_eq_of_le above with beyond | same
          · have outside :
                ([top] : List Symbol)[index - states.length]? = none := by
              apply List.getElem?_eq_none
              simp only [List.length_singleton]
              omega
            rw [outside] at found
            cases found
          · exact same.symm
        subst atTop
        have isTop : top = symbol := by
          simpa using found
        subst isTop
        exact ⟨source, target, by simp, by simp, edge⟩

/-- A sanctioned action leads from a path to a path. -/
theorem moves
    {situation next : Situation}
    {decision : Decision}
    (path : table.Path store situation.states situation.symbols)
    (sanctioned : situation.Sanctions table store decision)
    (moved : Situation.Moves decision situation next) :
    table.Path store next.states next.symbols := by
  cases moved with
  | @shift state target first token states pending symbols =>
      cases sanctioned with
      | shift top lookahead named entry =>
          obtain ⟨below, shape⟩ := List.head?_eq_some_iff.mp top
          change states = state :: below at shape
          subst shape
          have sameKind := Option.some.inj named
          rw [← sameKind] at entry
          exact .push path (.token entry)
  | @reduce state target production head states pending symbols headed =>
      cases sanctioned with
      | @reduce _ _ exposed _ _ _ top lookahead named entry shallow exposes goto
          present =>
          have left := path.drop production.length shallow
          have exposedTop :
              states.drop production.length =
                exposed :: states.drop (production.length + 1) := by
            obtain ⟨inside, same⟩ := List.getElem?_eq_some_iff.mp exposes
            rw [← same]
            exact List.drop_eq_getElem_cons inside
          rw [headed] at goto
          change
            table.Path store (states.drop production.length)
              (symbols.drop production.length) at left
          rw [exposedTop] at left
          change
            table.Path store (target :: states.drop production.length)
              (.nonterminal head :: symbols.drop production.length)
          rw [exposedTop]
          exact .push left (.nonterminal goto present)
  | accept =>
      exact path

/-- A sanctioned action that breaks off leaves a path. -/
theorem remains
    {situation next : Situation}
    {decision : Decision}
    (path : table.Path store situation.states situation.symbols)
    (sanctioned : situation.Sanctions table store decision)
    (left : situation.Remains decision next) :
    table.Path store next.states next.symbols := by
  cases left with
  | shift noToken =>
      exact path
  | reduce noHead =>
      cases sanctioned with
      | reduce top lookahead named entry shallow exposes goto present =>
          exact path.drop _ shallow

end Path

end Table

end ShiftReduce
