import ShiftReduce.Proofs.Grammar.ExpressionSoundness
import ShiftReduce.Proofs.Grammar.Rightmost

namespace ShiftReduce.Grammar.Expression

/-!
# Bodies on the stack of expressions

Each state of the automaton has a symbol of its own by which it is entered, so that the
states on a stack tell what the symbols beside them are called.  Whatever the
automaton reduces by is therefore spelled by the symbols on top of the stack
(`Builds.spells_body`).
-/

theorem reduces_of_entry
    {state : Int}
    {production : Production}
    {kind : String}
    (entry :
      table.actionAt (.int state) kind =
        .action (.reduce .direct (.production production))) :
    Reduces state production kind := by
  have listed := entry_cases state kind
  rw [entry] at listed
  rcases listed with holds | missing
  · generalize isReduction :
      Value.action (.reduce .direct (.production production)) = value at holds
    cases holds with
    | reduce reduces =>
        cases isReduction
        exact reduces
    | shift edge => cases isReduction
    | accept => cases isReduction
  · cases missing

namespace Builds

variable
  {frames : List Machine.Framed}
  {state : Int}
  {kinds : List String}
  {log : List Production}

/-- The symbol on top is the one by which the state on top was entered. -/
theorem top_label
    (builds : Builds frames state kinds log)
    (inner : state ≠ 0) :
    ∃ symbol below source kindsBelow logBelow,
      frames = (.int state, symbol) :: below ∧
        Builds below source kindsBelow logBelow ∧
        Edge source symbol.label state := by
  cases builds with
  | bottom => exact (inner rfl).elim
  | token builds named edge =>
      subst named
      exact ⟨_, _, _, _, _, rfl, builds, edge⟩
  | tree builds tree edge => exact ⟨_, _, _, _, _, rfl, builds, edge⟩

/-- The symbols on top of a stack, from the bottom to the top, are called as in a body. -/
def Spells
    (frames : List Machine.Framed)
    (body : List Value) :
    Prop :=
  body <:+ frames.reverse.map fun framed => framed.2.label

/-- A body of one symbol is spelled by the state that the symbol enters. -/
theorem spells_one
    {symbol : Value}
    (builds : Builds frames state kinds log)
    (inner : state ≠ 0)
    (entered : EnteredBy state symbol) :
    Spells frames [symbol] := by
  obtain ⟨held, below, _, _, _, rfl, _, edge⟩ := builds.top_label inner
  refine ⟨below.reverse.map fun framed => framed.2.label, ?_⟩
  simp [entered _ _ edge]

theorem spells_addition
    (builds : Builds frames 9 kinds log) :
    Spells frames addition.body := by
  obtain ⟨addend, _, six, _, _, rfl, belowAddend, addendEdge⟩ :=
    builds.top_label (by decide)
  cases List.mem_singleton.mp addendEdge.source_mem
  obtain ⟨plus, _, inner, _, _, rfl, belowPlus, plusEdge⟩ :=
    belowAddend.top_label (by decide)
  have goesOn : inner ∈ [1, 8] := plusEdge.source_mem
  obtain ⟨augend, below, _, _, _, rfl, _, augendEdge⟩ :=
    belowPlus.top_label (by rintro rfl; simp at goesOn)
  refine ⟨below.reverse.map fun framed => framed.2.label, ?_⟩
  simp [Edge.addend.enteredBy _ _ addendEdge,
    (Edge.plus List.mem_cons_self).enteredBy _ _ plusEdge,
    enteredBy_sum goesOn _ _ augendEdge, addition, Production.rule]

theorem spells_multiplication
    (builds : Builds frames 10 kinds log) :
    Spells frames multiplication.body := by
  obtain ⟨multiplier, _, seven, _, _, rfl, belowMultiplier, multiplierEdge⟩ :=
    builds.top_label (by decide)
  cases List.mem_singleton.mp multiplierEdge.source_mem
  obtain ⟨star, _, inner, _, _, rfl, belowStar, starEdge⟩ :=
    belowMultiplier.top_label (by decide)
  have goesOn : inner ∈ [2, 9] := starEdge.source_mem
  obtain ⟨multiplicand, below, _, _, _, rfl, _, multiplicandEdge⟩ :=
    belowStar.top_label (by rintro rfl; simp at goesOn)
  refine ⟨below.reverse.map fun framed => framed.2.label, ?_⟩
  simp [Edge.multiplier.enteredBy _ _ multiplierEdge,
    (Edge.star List.mem_cons_self).enteredBy _ _ starEdge,
    enteredBy_product goesOn _ _ multiplicandEdge, multiplication,
    Production.rule]

theorem spells_parenthesised
    (builds : Builds frames 11 kinds log) :
    Spells frames parenthesised.body := by
  obtain ⟨closing, _, eight, _, _, rfl, belowClosing, closingEdge⟩ :=
    builds.top_label (by decide)
  cases List.mem_singleton.mp closingEdge.source_mem
  obtain ⟨inside, _, four, _, _, rfl, belowInside, insideEdge⟩ :=
    belowClosing.top_label (by decide)
  cases List.mem_singleton.mp insideEdge.source_mem
  obtain ⟨opening, below, _, _, _, rfl, _, openingEdge⟩ :=
    belowInside.top_label (by decide)
  refine ⟨below.reverse.map fun framed => framed.2.label, ?_⟩
  simp [Edge.closing.enteredBy _ _ closingEdge,
    Edge.innerSum.enteredBy _ _ insideEdge,
    (Edge.opening List.mem_cons_self).enteredBy _ _ openingEdge, parenthesised,
    Production.rule]

/-- The body of every rule that the automaton reduces by is spelled on top of the stack. -/
theorem spells_body
    {production : Production}
    {kind : String}
    (builds : Builds frames state kinds log)
    (reduces : Reduces state production kind) :
    Spells frames production.body := by
  cases reduces with
  | addition follows => exact builds.spells_addition
  | multiplication follows => exact builds.spells_multiplication
  | parenthesised follows => exact builds.spells_parenthesised
  | summand follows =>
      exact builds.spells_one (by decide)
        (Edge.product List.mem_cons_self).enteredBy
  | multiplicand follows =>
      exact builds.spells_one (by decide)
        (Edge.factor List.mem_cons_self).enteredBy
  | name follows =>
      exact builds.spells_one (by decide)
        (Edge.name List.mem_cons_self).enteredBy

end Builds

end ShiftReduce.Grammar.Expression
