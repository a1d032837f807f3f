import ShiftReduce.Proofs.Grammar.ExpressionAutomaton
import ShiftReduce.Proofs.Grammar.ExpressionTree
import ShiftReduce.Proofs.Machine.Basic

namespace ShiftReduce.Grammar.Expression

/-!
# What the machine builds with expressions

Whatever the machine has on its stack is a path through the automaton, with a
derivation for every non-terminal on it (`Builds`).  Every reduction of the automaton
finds the body of its rule on the stack and a goto below it (`Builds.folds`), so that
the machine is never stuck, and what it accepts has a derivation.
-/

/--
Frames make up a path that ends in a state, and they stand for derivations: the
kinds are their leaves and the log lists their rules.
-/
inductive Builds :
    List Machine.Framed → Int → List String → List Production → Prop where
  | bottom :
      Builds [] 0 [] []
  | token
      {frames : List Machine.Framed}
      {source target : Int}
      {kinds : List String}
      {log : List Production}
      {kind : String}
      {token : Token}
      (builds : Builds frames source kinds log)
      (named : token.kind = kind)
      (edge : Edge source (.text kind) target) :
      Builds ((.int target, .token token) :: frames) target
        (kinds ++ [kind]) log
  | tree
      {frames : List Machine.Framed}
      {source target : Int}
      {kinds : List String}
      {log : List Production}
      {head : NonTerminal}
      (builds : Builds frames source kinds log)
      (tree : Tree head)
      (edge : Edge source (.nonterminal head) target) :
      Builds ((.int target, .nonterminal head) :: frames) target
        (kinds ++ tree.yield) (log ++ tree.postorder)

/-- The states from which a state is entered. -/
def sources :
    Int → List Int
  | 1 => [0]
  | 8 => [4]
  | 2 => [0, 4]
  | 9 => [6]
  | 3 => [0, 4, 6]
  | 10 => [7]
  | 4 => [0, 4, 6, 7]
  | 5 => [0, 4, 6, 7]
  | 11 => [8]
  | 6 => [1, 8]
  | 7 => [2, 9]
  | _ => []

theorem Edge.source_mem
    {source target : Int}
    {symbol : Value}
    (edge : Edge source symbol target) :
    source ∈ sources target := by
  cases edge with
  | sum | innerSum | addend | multiplier | closing => decide
  | product begins | factor begins | name begins | opening begins => exact begins
  | plus goesOn | star goesOn => exact goesOn

/-- Every edge into a state is with one symbol. -/
def EnteredBy
    (state : Int)
    (symbol : Value) :
    Prop :=
  ∀ source other, Edge source other state → other = symbol

/-- Each state has a symbol of its own, by which it is entered. -/
theorem Edge.enteredBy
    {source target : Int}
    {symbol : Value}
    (edge : Edge source symbol target) :
    EnteredBy target symbol := by
  intro otherSource otherSymbol other
  cases edge <;> cases other <;> rfl

theorem enteredBy_sum
    {state : Int}
    (inner : state ∈ [1, 8]) :
    EnteredBy state (.nonterminal sum) := by
  simp only [List.mem_cons, List.not_mem_nil, or_false] at inner
  rcases inner with rfl | rfl
  · exact Edge.sum.enteredBy
  · exact Edge.innerSum.enteredBy

theorem enteredBy_product
    {state : Int}
    (inner : state ∈ [2, 9]) :
    EnteredBy state (.nonterminal product) := by
  simp only [List.mem_cons, List.not_mem_nil, or_false] at inner
  rcases inner with rfl | rfl
  · exact (Edge.product List.mem_cons_self).enteredBy
  · exact Edge.addend.enteredBy

/-- Where the automaton reads an operand, it goes on with the factor. -/
theorem edge_of_operand
    {state : Int}
    (begins : state ∈ [0, 4, 6, 7]) :
    ∃ target, Edge state (.nonterminal factor) target := by
  simp only [List.mem_cons, List.not_mem_nil, or_false] at begins
  rcases begins with rfl | rfl | rfl | rfl
  · exact ⟨3, .factor (by decide)⟩
  · exact ⟨3, .factor (by decide)⟩
  · exact ⟨3, .factor (by decide)⟩
  · exact ⟨10, .multiplier⟩

theorem edge_of_factor
    {state : Int}
    (begins : state ∈ [0, 4, 6]) :
    ∃ target, Edge state (.nonterminal product) target := by
  simp only [List.mem_cons, List.not_mem_nil, or_false] at begins
  rcases begins with rfl | rfl | rfl
  · exact ⟨2, .product (by decide)⟩
  · exact ⟨2, .product (by decide)⟩
  · exact ⟨9, .addend⟩

theorem edge_of_product
    {state : Int}
    (begins : state ∈ [0, 4]) :
    ∃ target, Edge state (.nonterminal sum) target := by
  simp only [List.mem_cons, List.not_mem_nil, or_false] at begins
  rcases begins with rfl | rfl
  · exact ⟨1, .sum⟩
  · exact ⟨8, .innerSum⟩

namespace Builds

variable
  {frames : List Machine.Framed}
  {state : Int}
  {kinds : List String}
  {log : List Production}

theorem top_eq
    (builds : Builds frames state kinds log)
    (pending : List Token) :
    Machine.Configuration.top ⟨.int 0, frames, pending⟩ = .int state := by
  cases builds with
  | bottom => rfl
  | token builds named edge => rfl
  | tree builds tree edge => rfl

/-- A state that is entered by a non-terminal has a derivation on top. -/
theorem top_tree
    {head : NonTerminal}
    (builds : Builds frames state kinds log)
    (inner : state ≠ 0)
    (entered : EnteredBy state (.nonterminal head)) :
    ∃ below source kindsBelow logBelow,
      ∃ tree : Tree head,
        frames = (.int state, .nonterminal head) :: below ∧
          Builds below source kindsBelow logBelow ∧
          Edge source (.nonterminal head) state ∧
          kinds = kindsBelow ++ tree.yield ∧
          log = logBelow ++ tree.postorder := by
  cases builds with
  | bottom => exact (inner rfl).elim
  | token builds named edge => cases entered _ _ edge
  | tree builds tree edge =>
      cases entered _ _ edge
      exact ⟨_, _, _, _, tree, rfl, builds, edge, rfl, rfl⟩

/-- A state that is entered by a kind has a token on top. -/
theorem top_token
    {kind : String}
    (builds : Builds frames state kinds log)
    (inner : state ≠ 0)
    (entered : EnteredBy state (.text kind)) :
    ∃ below source kindsBelow token,
      frames = (.int state, .token token) :: below ∧
        Builds below source kindsBelow log ∧
        Edge source (.text kind) state ∧
        kinds = kindsBelow ++ [kind] := by
  cases builds with
  | bottom => exact (inner rfl).elim
  | tree builds tree edge => cases entered _ _ edge
  | token builds named edge =>
      cases entered _ _ edge
      exact ⟨_, _, _, _, rfl, builds, edge, rfl⟩

/--
The body of a rule lies on top of a stack, above a state that has a goto for its
head: with the body folded, the stack stands for the same kinds.
-/
def Folds
    (frames : List Machine.Framed)
    (production : Production)
    (kinds : List String)
    (log : List Production) :
    Prop :=
  ∃ head source target body below kindsBelow logBelow,
    production.head = .nonterminal head ∧
      frames = body ++ below ∧
      body.length = production.length ∧
      Builds below source kindsBelow logBelow ∧
      Edge source (.nonterminal head) target ∧
      Builds ((.int target, .nonterminal head) :: below) target kinds
        (log ++ [production])

theorem folds_addition
    (builds : Builds frames 9 kinds log) :
    Folds frames addition kinds log := by
  obtain ⟨_, six, _, _, addend, rfl, belowAddend, addendEdge, rfl, rfl⟩ :=
    builds.top_tree (by decide) Edge.addend.enteredBy
  cases List.mem_singleton.mp addendEdge.source_mem
  obtain ⟨_, inner, _, _, rfl, belowPlus, plusEdge, rfl⟩ :=
    belowAddend.top_token (by decide) (Edge.plus List.mem_cons_self).enteredBy
  have goesOn : inner ∈ [1, 8] := plusEdge.source_mem
  obtain ⟨_, source, _, _, augend, rfl, below, edge, rfl, rfl⟩ :=
    belowPlus.top_tree (by rintro rfl; simp at goesOn) (enteredBy_sum goesOn)
  have folded := Builds.tree below (augend.add addend) edge
  refine
    ⟨sum, source, _, [_, _, _], _, _, _, rfl, rfl, rfl, below, edge, ?_⟩
  simpa using folded

theorem folds_summand
    (builds : Builds frames 2 kinds log) :
    Folds frames summand kinds log := by
  obtain ⟨_, source, _, _, operand, rfl, below, operandEdge, rfl, rfl⟩ :=
    builds.top_tree (by decide) (Edge.product List.mem_cons_self).enteredBy
  obtain ⟨target, edge⟩ := edge_of_product operandEdge.source_mem
  have folded := Builds.tree below operand.ofProduct edge
  refine
    ⟨sum, source, target, [_], _, _, _, rfl, rfl, rfl, below, edge, ?_⟩
  simpa using folded

theorem folds_multiplication
    (builds : Builds frames 10 kinds log) :
    Folds frames multiplication kinds log := by
  obtain ⟨_, seven, _, _, multiplier, rfl, belowMultiplier, multiplierEdge, rfl,
      rfl⟩ :=
    builds.top_tree (by decide) Edge.multiplier.enteredBy
  cases List.mem_singleton.mp multiplierEdge.source_mem
  obtain ⟨_, inner, _, _, rfl, belowStar, starEdge, rfl⟩ :=
    belowMultiplier.top_token (by decide)
      (Edge.star List.mem_cons_self).enteredBy
  have goesOn : inner ∈ [2, 9] := starEdge.source_mem
  obtain ⟨_, source, _, _, multiplicand, rfl, below, edge, rfl, rfl⟩ :=
    belowStar.top_tree (by rintro rfl; simp at goesOn)
      (enteredBy_product goesOn)
  have folded := Builds.tree below (multiplicand.multiply multiplier) edge
  refine
    ⟨product, source, _, [_, _, _], _, _, _, rfl, rfl, rfl, below, edge, ?_⟩
  simpa using folded

theorem folds_multiplicand
    (builds : Builds frames 3 kinds log) :
    Folds frames multiplicand kinds log := by
  obtain ⟨_, source, _, _, operand, rfl, below, operandEdge, rfl, rfl⟩ :=
    builds.top_tree (by decide) (Edge.factor List.mem_cons_self).enteredBy
  obtain ⟨target, edge⟩ := edge_of_factor operandEdge.source_mem
  have folded := Builds.tree below operand.ofFactor edge
  refine
    ⟨product, source, target, [_], _, _, _, rfl, rfl, rfl, below, edge, ?_⟩
  simpa using folded

theorem folds_parenthesised
    (builds : Builds frames 11 kinds log) :
    Folds frames parenthesised kinds log := by
  obtain ⟨_, eight, _, _, rfl, belowClosing, closingEdge, rfl⟩ :=
    builds.top_token (by decide) Edge.closing.enteredBy
  cases List.mem_singleton.mp closingEdge.source_mem
  obtain ⟨_, four, _, _, inside, rfl, belowInside, insideEdge, rfl, rfl⟩ :=
    belowClosing.top_tree (by decide) Edge.innerSum.enteredBy
  cases List.mem_singleton.mp insideEdge.source_mem
  obtain ⟨_, source, _, _, rfl, below, openingEdge, rfl⟩ :=
    belowInside.top_token (by decide)
      (Edge.opening List.mem_cons_self).enteredBy
  obtain ⟨target, edge⟩ := edge_of_operand openingEdge.source_mem
  have folded := Builds.tree below inside.enclose edge
  refine
    ⟨factor, source, target, [_, _, _], _, _, _, rfl, rfl, rfl, below, edge, ?_⟩
  simpa using folded

theorem folds_name
    (builds : Builds frames 5 kinds log) :
    Folds frames name kinds log := by
  obtain ⟨_, source, _, _, rfl, below, nameEdge, rfl⟩ :=
    builds.top_token (by decide) (Edge.name List.mem_cons_self).enteredBy
  obtain ⟨target, edge⟩ := edge_of_operand nameEdge.source_mem
  have folded := Builds.tree below .named edge
  refine
    ⟨factor, source, target, [_], _, _, _, rfl, rfl, rfl, below, edge, ?_⟩
  simpa using folded

/-- Whatever the automaton reduces by lies on top of the stack. -/
theorem folds
    {production : Production}
    {kind : String}
    (builds : Builds frames state kinds log)
    (reduces : Reduces state production kind) :
    Folds frames production kinds log := by
  cases reduces with
  | addition follows => exact builds.folds_addition
  | summand follows => exact builds.folds_summand
  | multiplication follows => exact builds.folds_multiplication
  | multiplicand follows => exact builds.folds_multiplicand
  | parenthesised follows => exact builds.folds_parenthesised
  | name follows => exact builds.folds_name

theorem bottom_of_zero
    (builds : Builds frames 0 kinds log) :
    frames = [] ∧ kinds = [] ∧ log = [] := by
  cases builds with
  | bottom => exact ⟨rfl, rfl, rfl⟩
  | token builds named edge => cases edge.source_mem
  | tree builds tree edge => cases edge.source_mem

/-- What leads to acceptance is the derivation of a single sum. -/
theorem accepted
    (builds : Builds frames 1 kinds log) :
    ∃ tree : Tree sum,
      frames = [(.int 1, .nonterminal sum)] ∧
        kinds = tree.yield ∧
        log = tree.postorder := by
  obtain ⟨_, source, _, _, tree, rfl, below, edge, rfl, rfl⟩ :=
    builds.top_tree (by decide) Edge.sum.enteredBy
  cases List.mem_singleton.mp edge.source_mem
  obtain ⟨rfl, rfl, rfl⟩ := below.bottom_of_zero
  exact ⟨tree, rfl, rfl, rfl⟩

theorem log_bounded
    (builds : Builds frames state kinds log) :
    log.length ≤ 3 * kinds.length := by
  induction builds with
  | bottom => simp
  | token builds named edge inductionHypothesis =>
      simp only [List.length_append, List.length_singleton]
      omega
  | tree builds tree edge inductionHypothesis =>
      have bounded := postorder_bounded tree
      simp only [List.length_append]
      omega

end Builds

/-- No edge is with the end of the input. -/
theorem Edge.not_end
    {source target : Int}
    {kind : String}
    (edge : Edge source (.text kind) target) :
    kind ≠ "$" := by
  cases edge with
  | name | opening | closing | plus | star => decide

/--
What the machine has made of an input: what it has consumed stands on the stack,
the rules of the events are those of its derivations, and every step has either
consumed a token or reduced by a rule.
-/
structure Parses
    (input : List Token)
    (events : List Event)
    (configuration : Machine.Configuration)
    (consumed : List Token)
    (state : Int)
    (log : List Production) :
    Prop where
  initial : configuration.initial = .int 0
  split : consumed ++ configuration.pending = input
  endless : ∀ token ∈ consumed, token.kind ≠ "$"
  builds : Builds configuration.frames state (consumed.map Token.kind) log
  reduced : events.flatMap Event.rules = log.map Value.production
  counted : events.length = consumed.length + log.length

namespace Parses

variable
  {input consumed rest : List Token}
  {events : List Event}
  {configuration : Machine.Configuration}
  {state : Int}
  {log : List Production}
  {token : Token}

theorem top_eq
    (parses : Parses input events configuration consumed state log) :
    configuration.top = .int state := by
  rcases configuration with ⟨initial, frames, pending⟩
  cases parses.initial
  exact parses.builds.top_eq pending

theorem begin
    (input : List Token) :
    Parses input [] (Machine.begin table input) [] 0 [] where
  initial := rfl
  split := rfl
  endless := by simp
  builds := .bottom
  reduced := rfl
  counted := rfl

theorem shift
    {target : Int}
    (parses : Parses input events configuration consumed state log)
    (queue : configuration.pending = token :: rest)
    (edge : Edge state (.text token.kind) target) :
    Parses input
      (events ++ [.shift configuration.top (.token token)])
      { configuration.push (.int target) (.token token) with pending := rest }
      (consumed ++ [token]) target log where
  initial := parses.initial
  split := by
    rw [← parses.split, queue, List.append_assoc]
    rfl
  endless := by
    intro other member
    rcases List.mem_append.mp member with before | now
    · exact parses.endless other before
    · rw [List.mem_singleton.mp now]
      exact edge.not_end
  builds := by
    rw [List.map_append]
    exact .token parses.builds rfl edge
  reduced := by
    rw [List.flatMap_append, parses.reduced]
    simp [Event.rules]
  counted := by
    simp only [List.length_append, List.length_singleton, parses.counted]
    omega

/-- A reduction folds the body of its rule, and finds a goto below it. -/
theorem reduce
    {production : Production}
    (parses : Parses input events configuration consumed state log)
    (reduces : Reduces state production token.kind) :
    ∃ head target,
      production.head = .nonterminal head ∧
        production.length ≤ configuration.frames.length ∧
        table.gotoAt? (configuration.drop production.length).top
            (.nonterminal head) =
          some (.int target) ∧
        Parses input
          (events ++ [.reduce configuration.top (.production production)])
          ((configuration.drop production.length).push (.int target)
            (.nonterminal head))
          consumed target (log ++ [production]) := by
  obtain ⟨head, source, target, body, below, _, _, headed, shape, sameLength,
      belowBuilds, edge, folded⟩ :=
    parses.builds.folds reduces
  rcases configuration with ⟨initial, frames, pending⟩
  have initially := parses.initial
  change initial = .int 0 at initially
  change frames = body ++ below at shape
  subst initially shape
  have dropped :
      Machine.Configuration.drop ⟨.int 0, body ++ below, pending⟩
          production.length =
        ⟨.int 0, below, pending⟩ := by
    simp only [Machine.Configuration.drop, ← sameLength, List.drop_left]
  refine ⟨head, target, headed, ?_, ?_, ?_⟩
  · simp only [List.length_append, ← sameLength]
    omega
  · rw [dropped, belowBuilds.top_eq pending]
    exact goto_of_edge edge
  · rw [dropped]
    refine ⟨rfl, parses.split, parses.endless, folded, ?_, ?_⟩
    · rw [List.flatMap_append, parses.reduced]
      simp [Event.rules]
    · simp only [List.length_append, List.length_singleton, parses.counted]
      omega

/-- With a lookahead, the machine goes on, accepts a sum, or refuses the lookahead. -/
theorem step_cases
    (parses : Parses input events configuration consumed state log)
    (queue : configuration.pending = token :: rest) :
    (∃ event next consumedNext stateNext logNext,
      Machine.step table configuration = .goesOn event next ∧
        Parses input (events ++ [event]) next consumedNext stateNext logNext) ∨
    (state = 1 ∧
      token.kind = "$" ∧
        Machine.step table configuration = .ends (.accepted (.int 1))) ∨
    Machine.step table configuration = .ends (.refused (.int state) token) := by
  have stepped := Machine.step_of_lookahead queue table
  rw [parses.top_eq] at stepped
  rcases entry_cases state token.kind with holds | missing
  · generalize table.actionAt (.int state) token.kind = entry at holds stepped
    generalize kindIs : token.kind = kind at holds
    cases holds with
    | shift edge =>
        rw [← kindIs] at edge
        exact .inl ⟨_, _, _, _, _, stepped, parses.shift queue edge⟩
    | reduce reduces =>
        rw [← kindIs] at reduces
        obtain ⟨head, target, headed, shallow, goto, parsesNext⟩ :=
          parses.reduce reduces
        refine .inl ⟨_, _, _, _, _, ?_, parsesNext⟩
        rw [stepped]
        simp only [Machine.obey, Machine.reduce,
          Machine.Configuration.popAll?_eq, shallow, if_true, headed, goto]
    | accept =>
        refine .inr (.inl ⟨rfl, rfl, ?_⟩)
        rw [stepped, Machine.obey, parses.top_eq]
  · rw [missing, Machine.obey, parses.top_eq] at stepped
    exact .inr (.inr stepped)

/-- The machine parses an expression in all of its steps. -/
theorem of_steps
    (steps :
      Machine.Steps table (Machine.begin table input) events configuration) :
    ∃ consumed state log,
      Parses input events configuration consumed state log := by
  induction steps with
  | first =>
      exact ⟨[], 0, [], begin input⟩
  | @step before after events event steps stepped inductionHypothesis =>
      obtain ⟨consumed, state, log, parses⟩ := inductionHypothesis
      cases queue : before.pending with
      | nil =>
          rw [Machine.step_of_nothing queue] at stepped
          cases stepped
      | cons token rest =>
          rcases parses.step_cases queue with goesOn | ⟨_, _, ends⟩ | ends
          · obtain ⟨_, _, consumedNext, stateNext, logNext, same, parsesNext⟩ :=
              goesOn
            rw [stepped] at same
            cases same
            exact ⟨consumedNext, stateNext, logNext, parsesNext⟩
          · rw [stepped] at ends
            cases ends
          · rw [stepped] at ends
            cases ends

end Parses

end ShiftReduce.Grammar.Expression
