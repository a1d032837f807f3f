import ShiftReduce.Proofs.Grammar.ExpressionLanguage

namespace ShiftReduce.Grammar.Expression

/-!
# Beginnings of sentences

Every stack that the automaton builds can be completed: what it stands for begins a
sentence (`Builds.begins`).  A derivation on top of a path is made part of a larger one,
by the one rule that the state below it is in the middle of, until a single sum is left.

So the machine never consumes a token that cannot come next, and any token that it
refuses cannot (`refused_first`).  Without an end of the input, it runs out of tokens
just if these begin a sentence (`run_endless`).
-/

/-- A sentence is the leaves of a sum. -/
def IsSentence
    (kinds : List String) :
    Prop :=
  ∃ tree : Tree sum, kinds = tree.yield

/-- Some sentence begins with the kinds. -/
def Begins
    (kinds : List String) :
    Prop :=
  ∃ sentence, IsSentence sentence ∧ kinds <+: sentence

theorem Begins.of_append
    {kinds more : List String}
    (begins : Begins (kinds ++ more)) :
    Begins kinds := by
  obtain ⟨sentence, isSentence, starts⟩ := begins
  exact ⟨sentence, isSentence, (List.prefix_append kinds more).trans starts⟩

/-- The end of the input is no leaf of a derivation. -/
theorem yield_endless
    {head : NonTerminal}
    (tree : Tree head) :
    "$" ∉ tree.yield := by
  induction head, tree using tree_induction with
  | add augend addend inAugend inAddend => simp [inAugend, inAddend]
  | ofProduct operand inOperand => simpa using inOperand
  | multiply multiplicand multiplier inMultiplicand inMultiplier =>
      simp [inMultiplicand, inMultiplier]
  | ofFactor operand inOperand => simpa using inOperand
  | enclose inside inInside => simp [inInside]
  | named => simp

/-- A sentence begins with what a stack stands for and any derivation that it goes on with. -/
def Completes
    (frames : List Machine.Framed) :
    Prop :=
  ∀ {source target kinds log head},
    Builds frames source kinds log →
      Edge source (.nonterminal head) target →
        ∀ tree : Tree head, Begins (kinds ++ tree.yield)

section Completion

variable
  {frames : List Machine.Framed}
  {source target : Int}
  {kinds : List String}
  {log : List Production}

/-- A sum is the whole, or it is put into the parentheses that have been opened. -/
theorem completes_sum
    (shorter :
      ∀ below : List Machine.Framed,
        below.length < frames.length → Completes below)
    (builds : Builds frames source kinds log)
    (edge : Edge source (.nonterminal sum) target)
    (tree : Tree sum) :
    Begins (kinds ++ tree.yield) := by
  have sources := (sum_edge edge).1
  simp only [List.mem_cons, List.not_mem_nil, or_false] at sources
  rcases sources with rfl | rfl
  · obtain ⟨_, rfl, _⟩ := builds.bottom_of_zero
    exact ⟨_, ⟨tree, rfl⟩, List.prefix_rfl⟩
  · obtain ⟨below, _, kindsBelow, _, rfl, belowBuilds, openingEdge, rfl⟩ :=
      builds.top_token (by decide) (Edge.opening List.mem_cons_self).enteredBy
    obtain ⟨_, factorEdge⟩ := edge_of_operand openingEdge.source_mem
    have begins :
        Begins (kindsBelow ++ ["lparen"] ++ tree.yield ++ ["rparen"]) := by
      simpa using shorter below (by simp) belowBuilds factorEdge tree.enclose
    exact begins.of_append

/-- A product is a sum, or it is added to the sum before it. -/
theorem completes_product
    (shorter :
      ∀ below : List Machine.Framed,
        below.length < frames.length → Completes below)
    (builds : Builds frames source kinds log)
    (edge : Edge source (.nonterminal product) target)
    (tree : Tree product) :
    Begins (kinds ++ tree.yield) := by
  by_cases operand : source ∈ [0, 4]
  · obtain ⟨_, sumEdge⟩ := edge_of_product operand
    simpa using completes_sum shorter builds sumEdge tree.ofProduct
  · have isAddend : source = 6 := by
      have sources := (product_edge edge).1
      simp only [List.mem_cons, List.not_mem_nil, or_false] at sources operand
      omega
    subst isAddend
    obtain ⟨_, inner, _, _, rfl, belowPlus, plusEdge, rfl⟩ :=
      builds.top_token (by decide) (Edge.plus List.mem_cons_self).enteredBy
    have goesOn : inner ∈ [1, 8] := plusEdge.source_mem
    obtain ⟨below, _, _, _, augend, rfl, belowBuilds, sumEdge, rfl, _⟩ :=
      belowPlus.top_tree (by rintro rfl; simp at goesOn) (enteredBy_sum goesOn)
    have begins :=
      shorter below (by simp only [List.length_cons]; omega) belowBuilds sumEdge
        (augend.add tree)
    simpa using begins

/-- A factor is a product, or it multiplies the product before it. -/
theorem completes_factor
    (shorter :
      ∀ below : List Machine.Framed,
        below.length < frames.length → Completes below)
    (builds : Builds frames source kinds log)
    (edge : Edge source (.nonterminal factor) target)
    (tree : Tree factor) :
    Begins (kinds ++ tree.yield) := by
  by_cases operand : source ∈ [0, 4, 6]
  · obtain ⟨_, productEdge⟩ := edge_of_factor operand
    simpa using completes_product shorter builds productEdge tree.ofFactor
  · have isMultiplier : source = 7 := by
      have sources := factor_edge edge
      simp only [List.mem_cons, List.not_mem_nil, or_false] at sources operand
      omega
    subst isMultiplier
    obtain ⟨_, inner, _, _, rfl, belowStar, starEdge, rfl⟩ :=
      builds.top_token (by decide) (Edge.star List.mem_cons_self).enteredBy
    have goesOn : inner ∈ [2, 9] := starEdge.source_mem
    obtain ⟨below, _, _, _, multiplicand, rfl, belowBuilds, productEdge, rfl, _⟩ :=
      belowStar.top_tree (by rintro rfl; simp at goesOn)
        (enteredBy_product goesOn)
    have begins :=
      shorter below (by simp only [List.length_cons]; omega) belowBuilds
        productEdge (multiplicand.multiply tree)
    simpa using begins

/-- Every stack can be completed, whatever derivation it goes on with. -/
theorem completes
    (frames : List Machine.Framed) :
    Completes frames := by
  -- Each rule that completes a derivation takes frames off the stack below it.
  generalize size : frames.length = number
  induction number using Nat.strongRecOn generalizing frames with
  | ind number inductionHypothesis =>
      subst size
      have shorter :
          ∀ below : List Machine.Framed,
            below.length < frames.length → Completes below := by
        intro below less
        exact inductionHypothesis _ less below rfl
      intro source target kinds log head builds edge tree
      have along := edge
      cases edge with
      | sum | innerSum => exact completes_sum shorter builds along tree
      | product | addend => exact completes_product shorter builds along tree
      | factor | multiplier => exact completes_factor shorter builds along tree

end Completion

namespace Builds

variable
  {frames : List Machine.Framed}
  {state : Int}
  {kinds : List String}
  {log : List Production}

/-- Where an operand comes next, a name completes it. -/
theorem begins_of_operand
    (builds : Builds frames state kinds log)
    (operand : state ∈ [0, 4, 6, 7]) :
    Begins kinds := by
  obtain ⟨_, edge⟩ := edge_of_operand operand
  exact (completes frames builds edge .named).of_append

/-- With the body of a rule folded, the derivation on top is completed. -/
theorem Folds.begins
    {production : Production}
    (folds : Folds frames production kinds log) :
    Begins kinds := by
  obtain ⟨head, _, _, _, below, _, _, _, _, _, _, _, folded⟩ := folds
  generalize log ++ [production] = logged at folded
  cases folded with
  | tree builds tree edge => exact completes below builds edge tree

/-- What a stack stands for begins a sentence. -/
theorem begins
    (builds : Builds frames state kinds log) :
    Begins kinds := by
  have whole := builds
  cases builds with
  | bottom => exact whole.begins_of_operand (by decide)
  | @tree below _ _ _ _ _ builds tree edge =>
      exact completes below builds edge tree
  | token builds named edge =>
      cases edge with
      | name => exact whole.folds_name.begins
      | closing => exact whole.folds_parenthesised.begins
      | opening => exact whole.begins_of_operand (by decide)
      | plus => exact whole.begins_of_operand (by decide)
      | star => exact whole.begins_of_operand (by decide)

end Builds

section Machine

variable
  {input text rest : List Token}
  {delimiter token : Token}
  {events : List Event}
  {last : Machine.Configuration}
  {state : Value}

/-- A sentence is not refused, neither in the middle nor at its end. -/
theorem sentence_not_refused
    (delimited : Delimited text delimiter)
    (isSentence : IsSentence (text.map Token.kind))
    (steps :
      Machine.Steps table (Machine.begin table (text ++ delimiter :: rest))
        events last) :
    Machine.step table last ≠ .ends (.refused state token) := by
  intro refused
  obtain ⟨tree, yields⟩ := isSentence
  have granted : 4 * text.length < 4 * text.length + events.length + 1 := by
    omega
  have taken : events.length < 4 * text.length + events.length + 1 := by
    omega
  obtain ⟨_, accepts, _⟩ := run_accepts delimited tree yields granted rest
  rw [steps.run_ends refused taken] at accepts
  cases accepts

/-- Where a token is refused, another rest of the input makes no difference. -/
theorem refused_whatever_follows
    {consumed : List Token}
    (steps :
      Machine.Steps table (Machine.begin table (consumed ++ token :: rest))
        events last)
    (queue : last.pending = token :: rest)
    (refused : Machine.step table last = .ends (.refused state token))
    (other : List Token) :
    ∃ lastOther,
      Machine.Steps table (Machine.begin table (consumed ++ token :: other))
          events lastOther ∧
        Machine.step table lastOther = .ends (.refused state token) := by
  have lookahead : last.pending = [] ++ token :: rest := queue
  obtain ⟨read, pending, stepsSame⟩ := steps.unread lookahead
  obtain ⟨rfl, entry, _⟩ := Machine.step_refused refused
  have sameRead : read = consumed := by
    rw [List.append_nil] at pending
    exact (List.append_cancel_right pending).symm
  subst sameRead
  rw [List.append_nil] at stepsSame
  refine ⟨{ last with pending := token :: other }, stepsSame other, ?_⟩
  change
    Machine.obey table ⟨last.initial, last.frames, token :: other⟩ token other
        (table.actionAt last.top token.kind) =
      _
  rw [entry]
  rfl

/-- A token is refused at the first place where no sentence goes on like that. -/
theorem refused_first
    (steps :
      Machine.Steps table (Machine.begin table input) events last)
    (refused : Machine.step table last = .ends (.refused state token)) :
    ∃ consumed rest,
      input = consumed ++ token :: rest ∧
        last.pending = token :: rest ∧
        Begins (consumed.map Token.kind) ∧
        ((token.kind = "$" ∧ ¬ IsSentence (consumed.map Token.kind)) ∨
          (token.kind ≠ "$" ∧
            ¬ Begins ((consumed ++ [token]).map Token.kind))) := by
  obtain ⟨consumed, number, log, parses⟩ := Parses.of_steps steps
  obtain ⟨_, _, rest, queue⟩ := Machine.step_refused refused
  have split := parses.split
  rw [queue] at split
  subst split
  refine ⟨consumed, rest, rfl, queue, parses.builds.begins, ?_⟩
  by_cases isEnd : token.kind = "$"
  · refine .inl ⟨isEnd, ?_⟩
    intro isSentence
    exact sentence_not_refused ⟨parses.endless, isEnd⟩ isSentence steps refused
  · refine .inr ⟨isEnd, ?_⟩
    -- The machine would accept the sentence, and yet refuse this token in it.
    rintro ⟨_, ⟨tree, rfl⟩, more, shape⟩
    have yields :
        (consumed ++ token :: more.map Token.ofKind).map Token.kind =
          tree.yield := by
      rw [← shape]
      simp only [List.map_append, List.map_cons, List.map_map, List.map_nil,
        List.append_assoc, List.cons_append, List.nil_append]
      exact congrArg _ (congrArg _ (List.map_id more))
    have delimited :
        Delimited (consumed ++ token :: more.map Token.ofKind) .endOfInput := by
      refine ⟨?_, rfl⟩
      intro other member isOtherEnd
      apply yield_endless tree
      rw [← yields, ← isOtherEnd]
      exact List.mem_map_of_mem member
    obtain ⟨lastOther, stepsOther, refusedOther⟩ :=
      refused_whatever_follows steps queue refused
        (more.map Token.ofKind ++ [.endOfInput])
    rw [← List.cons_append, ← List.append_assoc] at stepsOther
    exact sentence_not_refused delimited ⟨tree, yields⟩ stepsOther refusedOther

/-- Without an end, an input is exhausted if it begins a sentence, or else refused. -/
theorem run_endless
    (endless : ∀ token ∈ input, token.kind ≠ "$")
    {granted : Nat}
    (enough : 4 * input.length < granted) :
    (Begins (input.map Token.kind) ∧
      ∃ state,
        (Machine.run table granted (Machine.begin table input)).verdict =
          some (.stuck (.inputExhausted state))) ∨
    (¬ Begins (input.map Token.kind) ∧
      ∃ state token,
        (Machine.run table granted (Machine.begin table input)).verdict =
          some (.refused state token)) := by
  obtain ⟨events, steps, ends⟩ :=
    Machine.run_steps table granted (Machine.begin table input)
  obtain ⟨consumed, number, log, parses⟩ := Parses.of_steps steps
  have bounded := parses.events_bounded
  have split := parses.split
  generalize
    Machine.run table granted (Machine.begin table input) = ending at *
  cases decided : ending.verdict with
  | none =>
      rw [decided] at ends
      rw [← split, List.length_append] at enough
      omega
  | some verdict =>
      rw [decided] at ends
      have stepped := ends.2
      cases queue : ending.configuration.pending with
      | nil =>
          rw [queue, List.append_nil] at split
          rw [Machine.step_of_nothing queue] at stepped
          cases stepped
          subst split
          exact .inl ⟨parses.builds.begins, _, rfl⟩
      | cons token rest =>
          have unended : token.kind ≠ "$" := by
            apply endless
            rw [← split, queue]
            exact List.mem_append_right _ List.mem_cons_self
          rcases parses.step_cases queue with goesOn | accepts | refuses
          · obtain ⟨_, _, _, _, _, goes, _⟩ := goesOn
            rw [stepped] at goes
            cases goes
          · exact (unended accepts.2.1).elim
          · obtain ⟨before, after, inputIs, _, _, atEnd | unsuitable⟩ :=
              refused_first steps refuses
            · exact (unended atEnd.1).elim
            · rw [stepped] at refuses
              cases refuses
              refine .inr ⟨?_, _, _, rfl⟩
              intro begins
              apply unsuitable.2
              rw [inputIs, List.append_cons, List.map_append] at begins
              exact begins.of_append

end Machine

end ShiftReduce.Grammar.Expression
