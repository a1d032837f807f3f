import ShiftReduce.Proofs.Grammar.ExpressionSoundness

namespace ShiftReduce.Grammar.Expression

/-!
# The machine recognises every expression

Where the automaton has an edge with a non-terminal, the machine reads the leaves of
any of its derivations, reduces by the rules of the derivation in postorder, and has
then gone along the edge (`recognises`).  This takes a lookahead that may follow the
non-terminal, or the last reductions would not be made.  How a text that goes along
an edge is put together of others, and what the machine announces on its way, is said
rule by rule (`goes_add` and its kind).
-/

/-- The kinds that may follow a non-terminal. -/
def follow
    (head : NonTerminal) :
    List String :=
  if head = sum then afterSum else afterFactor

theorem afterFactor_of_afterSum
    {kind : String}
    (follows : kind ∈ afterSum) :
    kind ∈ afterFactor := by
  simp only [afterSum, afterFactor, List.mem_cons, List.not_mem_nil, or_false]
    at follows ⊢
  rcases follows with rfl | rfl | rfl
  · simp
  · simp
  · simp

section Steps

variable
  {first configuration : Machine.Configuration}
  {events : List Event}
  {source target : Int}
  {token : Token}
  {rest : List Token}

theorem shift_along
    (steps : Machine.Steps table first events configuration)
    (top : configuration.top = .int source)
    (edge : Edge source (.text token.kind) target)
    (queue : configuration.pending = token :: rest) :
    Machine.Steps table first
      (events ++ [.shift configuration.top (.token token)])
      { configuration.push (.int target) (.token token) with
        pending := rest } := by
  apply steps.step
  rw [Machine.step_of_lookahead queue, top, entry_of_edge edge]
  simp only [shiftTo, Machine.obey, top]

theorem reduce_along
    {state : Int}
    {production : Production}
    {head : NonTerminal}
    (steps : Machine.Steps table first events configuration)
    (top : configuration.top = .int state)
    (reduces : Reduces state production token.kind)
    (queue : configuration.pending = token :: rest)
    (headed : production.head = .nonterminal head)
    (shallow : production.length ≤ configuration.frames.length)
    (exposed : (configuration.drop production.length).top = .int source)
    (edge : Edge source (.nonterminal head) target) :
    Machine.Steps table first
      (events ++ [.reduce configuration.top (.production production)])
      ((configuration.drop production.length).push (.int target)
        (.nonterminal head)) := by
  apply steps.step
  rw [Machine.step_of_lookahead queue, top, entry_of_reduces reduces]
  simp only [Machine.obey, Machine.reduce, Machine.Configuration.popAll?_eq,
    shallow, if_true, headed, exposed, goto_of_edge edge, top]

end Steps

/--
The machine reads a text up to a lookahead and goes along any edge with a
non-terminal, and what it announces meanwhile is as required.
-/
def Goes
    (head : NonTerminal)
    (text : List Token)
    (required : List Event → Prop) :
    Prop :=
  ∀ {first configuration : Machine.Configuration}
    {events : List Event}
    {source target : Int}
    {rest : List Token}
    {lookahead : Token},
    Machine.Steps table first events configuration →
      configuration.top = .int source →
      Edge source (.nonterminal head) target →
      configuration.pending = text ++ lookahead :: rest →
      lookahead.kind ∈ follow head →
        ∃ later,
          Machine.Steps table first (events ++ later)
              { configuration.push (.int target) (.nonterminal head) with
                pending := lookahead :: rest } ∧
            required later

section Rules

variable
  {text before after : List Token}
  {required within ahead : List Event → Prop}

theorem goes_named
    {token : Token}
    (kindIs : token.kind = "id")
    (announced :
      ∀ below above,
        required
          [.shift below (.token token), .reduce above (.production name)]) :
    Goes factor [token] required := by
  intro first configuration events source target rest lookahead steps top edge
    queue follows
  have nameEdge : Edge source (.text token.kind) 5 := by
    rw [kindIs]
    exact .name (factor_edge edge)
  have shifted := shift_along steps top nameEdge queue
  have folded :=
    reduce_along shifted rfl (.name follows) rfl rfl
      (Nat.le_add_left 1 _) top edge
  rw [List.append_assoc] at folded
  exact ⟨_, folded, announced _ _⟩

theorem goes_enclose
    {opening closing : Token}
    (openingIs : opening.kind = "lparen")
    (goesWithin : Goes sum text within)
    (closingIs : closing.kind = "rparen")
    (announced :
      ∀ below inner above later,
        within later →
          required
            (.shift below (.token opening) ::
              (later ++
                [.shift inner (.token closing),
                  .reduce above (.production parenthesised)]))) :
    Goes factor (opening :: (text ++ [closing])) required := by
  intro first configuration events source target rest lookahead steps top edge
    queue follows
  have openingEdge : Edge source (.text opening.kind) 4 := by
    rw [openingIs]
    exact .opening (factor_edge edge)
  have closingEdge : Edge 8 (.text closing.kind) 11 := by
    rw [closingIs]
    exact .closing
  have opened := shift_along steps top openingEdge queue
  obtain ⟨later, filled, told⟩ :=
    goesWithin opened rfl .innerSum (List.append_assoc _ _ _)
      (by rw [closingIs]; decide)
  have closed := shift_along filled rfl closingEdge rfl
  have folded :=
    reduce_along closed rfl (.parenthesised follows) rfl rfl
      (Nat.le_add_left 3 _) top edge
  simp only [List.append_assoc] at folded
  exact ⟨_, folded, announced _ _ _ later told⟩

theorem goes_ofFactor
    (goesWithin : Goes factor text within)
    (announced :
      ∀ above later,
        within later →
          required (later ++ [.reduce above (.production multiplicand)])) :
    Goes product text required := by
  intro first configuration events source target rest lookahead steps top edge
    queue follows
  obtain ⟨later, filled, told⟩ :=
    goesWithin steps top (.factor (product_edge edge).1) queue follows
  have folded :=
    reduce_along filled rfl (.multiplicand follows) rfl rfl
      (Nat.le_add_left 1 _) top edge
  rw [List.append_assoc] at folded
  exact ⟨_, folded, announced _ later told⟩

theorem goes_multiply
    {star : Token}
    (goesAhead : Goes product before ahead)
    (starIs : star.kind = "star")
    (goesWithin : Goes factor after within)
    (announced :
      ∀ middle above earlier later,
        ahead earlier →
          within later →
            required
              (earlier ++
                .shift middle (.token star) ::
                  (later ++ [.reduce above (.production multiplication)]))) :
    Goes product (before ++ star :: after) required := by
  intro first configuration events source target rest lookahead steps top edge
    queue follows
  have starEdge : Edge target (.text star.kind) 7 := by
    rw [starIs]
    exact .star (product_edge edge).2
  rw [List.append_assoc] at queue
  obtain ⟨earlier, multiplied, toldAhead⟩ :=
    goesAhead steps top edge queue (by rw [starIs]; decide)
  have shifted := shift_along multiplied rfl starEdge rfl
  obtain ⟨later, filled, told⟩ :=
    goesWithin shifted rfl .multiplier rfl follows
  have folded :=
    reduce_along filled rfl (.multiplication follows) rfl rfl
      (Nat.le_add_left 3 _) top edge
  simp only [List.append_assoc] at folded
  exact ⟨_, folded, announced _ _ earlier later toldAhead told⟩

theorem goes_ofProduct
    (goesWithin : Goes product text within)
    (announced :
      ∀ above later,
        within later →
          required (later ++ [.reduce above (.production summand)])) :
    Goes sum text required := by
  intro first configuration events source target rest lookahead steps top edge
    queue follows
  obtain ⟨later, filled, told⟩ :=
    goesWithin steps top (.product (sum_edge edge).1) queue
      (afterFactor_of_afterSum follows)
  have folded :=
    reduce_along filled rfl (.summand follows) rfl rfl
      (Nat.le_add_left 1 _) top edge
  rw [List.append_assoc] at folded
  exact ⟨_, folded, announced _ later told⟩

theorem goes_add
    {plus : Token}
    (goesAhead : Goes sum before ahead)
    (plusIs : plus.kind = "plus")
    (goesWithin : Goes product after within)
    (announced :
      ∀ middle above earlier later,
        ahead earlier →
          within later →
            required
              (earlier ++
                .shift middle (.token plus) ::
                  (later ++ [.reduce above (.production addition)]))) :
    Goes sum (before ++ plus :: after) required := by
  intro first configuration events source target rest lookahead steps top edge
    queue follows
  have plusEdge : Edge target (.text plus.kind) 6 := by
    rw [plusIs]
    exact .plus (sum_edge edge).2
  rw [List.append_assoc] at queue
  obtain ⟨earlier, added, toldAhead⟩ :=
    goesAhead steps top edge queue (by rw [plusIs]; decide)
  have shifted := shift_along added rfl plusEdge rfl
  obtain ⟨later, filled, told⟩ :=
    goesWithin shifted rfl .addend rfl (afterFactor_of_afterSum follows)
  have folded :=
    reduce_along filled rfl (.addition follows) rfl rfl
      (Nat.le_add_left 3 _) top edge
  simp only [List.append_assoc] at folded
  exact ⟨_, folded, announced _ _ earlier later toldAhead told⟩

end Rules

/-- The machine goes along an edge by way of a derivation, up to a lookahead. -/
def Recognises
    (head : NonTerminal)
    (tree : Tree head) :
    Prop :=
  ∀ {first configuration : Machine.Configuration}
    {events : List Event}
    {source target : Int}
    {tokens rest : List Token}
    {lookahead : Token},
    Machine.Steps table first events configuration →
      configuration.top = .int source →
      Edge source (.nonterminal head) target →
      configuration.pending = tokens ++ lookahead :: rest →
      tokens.map Token.kind = tree.yield →
      lookahead.kind ∈ follow head →
        ∃ later,
          Machine.Steps table first (events ++ later)
              { configuration.push (.int target) (.nonterminal head) with
                pending := lookahead :: rest } ∧
            later.flatMap Event.rules = tree.postorder.map Value.production

/-- What is read along a derivation is what goes along the edge. -/
theorem Recognises.goes
    {head : NonTerminal}
    {tree : Tree head}
    {text : List Token}
    (recognised : Recognises head tree)
    (yields : text.map Token.kind = tree.yield) :
    Goes head text fun later =>
      later.flatMap Event.rules = tree.postorder.map Value.production := by
  intro first configuration events source target rest lookahead steps top edge
    queue follows
  exact recognised steps top edge queue yields follows

theorem recognises_named :
    Recognises factor .named := by
  intro first configuration events source target tokens rest lookahead steps top
    edge queue yields follows
  rw [Tree.yield_named] at yields
  obtain ⟨token, rfl, kindIs⟩ := List.map_eq_singleton_iff.mp yields
  refine goes_named kindIs ?_ steps top edge queue follows
  intro below above
  simp [Event.rules]

theorem recognises_enclose
    {inside : Tree sum}
    (insideRecognised : Recognises sum inside) :
    Recognises factor inside.enclose := by
  intro first configuration events source target tokens rest lookahead steps top
    edge queue yields follows
  rw [Tree.yield_enclose] at yields
  obtain ⟨opening, others, rfl, openingIs, othersAre⟩ :=
    List.map_eq_cons_iff.mp yields
  obtain ⟨middle, last, rfl, middleIs, lastIs⟩ :=
    List.map_eq_append_iff.mp othersAre
  obtain ⟨closing, rfl, closingIs⟩ := List.map_eq_singleton_iff.mp lastIs
  refine
    goes_enclose openingIs (insideRecognised.goes middleIs) closingIs ?_ steps
      top edge queue follows
  intro below inner above later reduced
  simp [Event.rules, reduced]

theorem recognises_ofFactor
    {operand : Tree factor}
    (operandRecognised : Recognises factor operand) :
    Recognises product operand.ofFactor := by
  intro first configuration events source target tokens rest lookahead steps top
    edge queue yields follows
  rw [Tree.yield_ofFactor] at yields
  refine
    goes_ofFactor (operandRecognised.goes yields) ?_ steps top edge queue
      follows
  intro above later reduced
  simp [Event.rules, reduced]

theorem recognises_multiply
    {multiplicand : Tree product}
    {multiplier : Tree factor}
    (multiplicandRecognised : Recognises product multiplicand)
    (multiplierRecognised : Recognises factor multiplier) :
    Recognises product (multiplicand.multiply multiplier) := by
  intro first configuration events source target tokens rest lookahead steps top
    edge queue yields follows
  rw [Tree.yield_multiply] at yields
  obtain ⟨before, others, rfl, beforeIs, othersAre⟩ :=
    List.map_eq_append_iff.mp yields
  obtain ⟨star, after, rfl, starIs, afterIs⟩ :=
    List.map_eq_cons_iff.mp othersAre
  refine
    goes_multiply (multiplicandRecognised.goes beforeIs) starIs
      (multiplierRecognised.goes afterIs) ?_ steps top edge queue follows
  intro middle above earlier later reducedBefore reducedAfter
  simp [Event.rules, reducedBefore, reducedAfter]

theorem recognises_ofProduct
    {operand : Tree product}
    (operandRecognised : Recognises product operand) :
    Recognises sum operand.ofProduct := by
  intro first configuration events source target tokens rest lookahead steps top
    edge queue yields follows
  rw [Tree.yield_ofProduct] at yields
  refine
    goes_ofProduct (operandRecognised.goes yields) ?_ steps top edge queue
      follows
  intro above later reduced
  simp [Event.rules, reduced]

theorem recognises_add
    {augend : Tree sum}
    {addend : Tree product}
    (augendRecognised : Recognises sum augend)
    (addendRecognised : Recognises product addend) :
    Recognises sum (augend.add addend) := by
  intro first configuration events source target tokens rest lookahead steps top
    edge queue yields follows
  rw [Tree.yield_add] at yields
  obtain ⟨before, others, rfl, beforeIs, othersAre⟩ :=
    List.map_eq_append_iff.mp yields
  obtain ⟨plus, after, rfl, plusIs, afterIs⟩ :=
    List.map_eq_cons_iff.mp othersAre
  refine
    goes_add (augendRecognised.goes beforeIs) plusIs
      (addendRecognised.goes afterIs) ?_ steps top edge queue follows
  intro middle above earlier later reducedBefore reducedAfter
  simp [Event.rules, reducedBefore, reducedAfter]

/-- The machine goes along every edge by way of every derivation. -/
theorem recognises
    {head : NonTerminal}
    (tree : Tree head) :
    Recognises head tree := by
  induction head, tree using tree_induction with
  | add augend addend first second => exact recognises_add first second
  | ofProduct operand recognised => exact recognises_ofProduct recognised
  | multiply multiplicand multiplier first second =>
      exact recognises_multiply first second
  | ofFactor operand recognised => exact recognises_ofFactor recognised
  | enclose inside recognised => exact recognises_enclose recognised
  | named => exact recognises_named

end ShiftReduce.Grammar.Expression
