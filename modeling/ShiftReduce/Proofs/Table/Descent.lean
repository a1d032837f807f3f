import Mathlib.Data.Prod.Lex
import Mathlib.Data.Set.Card
import ShiftReduce.Proofs.Table.Filed

namespace ShiftReduce

/-!
# Reductions that come to an end

A reduction consumes no token.  By a rule of two symbols or more it makes the stacks lower;
by a rule of one symbol it puts another state in the place of the one on top
(`Table.UnitStep`), and what lies below and what comes next stay as they are.  If such steps
never go round in a circle, every state has a rank above a state and before a kind
(`Table.rank`), and each of them leads to a state of lower rank.

So every action that does not end a run lessens the weight of the situation
(`Situation.Moves.weight_lt`): the tokens that are left, then the height of the stack, then
the rank of the state on top.
-/

namespace Table

variable
  {table : Table}
  {store : Store}
  {below state next : Value}
  {kind : String}

/-- On a kind, a rule of one symbol puts a state in the place of another on top of a third. -/
inductive UnitStep
    (table : Table)
    (store : Store)
    (below : Value)
    (kind : String) :
    Value → Value → Prop where
  | intro
      {state next : Value}
      {production : Production}
      {head : NonTerminal}
      (entry :
        table.action store state (.text kind) =
          .ok (.action (.reduce .direct (.production production))))
      (single : production.length = 1)
      (headed : production.head = .nonterminal head)
      (goto : table.goto store below (.nonterminal head) = .ok next)
      (present : next.isNone = false) :
      UnitStep table store below kind state next

/-- Every rule has a body, and rules of one symbol never lead back to where they led from. -/
structure ReductionsEnd
    (table : Table)
    (store : Store) :
    Prop where
  bodies :
    ∀ cell ∈ table.actions,
      ∀ production,
        cell.entry = .action (.reduce .direct (.production production)) →
          production.body ≠ []
  acyclic :
    ∀ below kind state,
      table.HasState below →
        ¬ Relation.TransGen (table.UnitStep store below kind) state state

/-- The states that rules of one symbol lead to. -/
def unitTargets
    (table : Table)
    (store : Store)
    (below : Value)
    (kind : String)
    (state : Value) :
    Set Value :=
  { next | Relation.TransGen (table.UnitStep store below kind) state next }

/-- The number of states that rules of one symbol lead to. -/
noncomputable def rank
    (table : Table)
    (store : Store)
    (below : Value)
    (kind : String)
    (state : Value) :
    Nat :=
  (table.unitTargets store below kind state).ncard

theorem UnitStep.hasState
    (step : table.UnitStep store below kind state next) :
    table.HasState next := by
  cases step with
  | intro entry single headed goto present =>
      exact hasState_of_goto goto present

theorem UnitStep.mem_gotos
    (step : table.UnitStep store below kind state next) :
    next ∈ table.gotos.map Cell.entry := by
  cases step with
  | intro entry single headed goto present =>
      rcases goto_mem goto with rfl | ⟨cell, member, rfl⟩
      · cases present
      · exact List.mem_map_of_mem member

/-- A table has finitely many gotos, so there are finitely many states to lead to. -/
theorem unitTargets_finite
    (table : Table)
    (store : Store)
    (below : Value)
    (kind : String)
    (state : Value) :
    (table.unitTargets store below kind state).Finite := by
  refine (table.gotos.map Cell.entry).finite_toSet.subset ?_
  intro next reached
  cases reached with
  | single step => exact step.mem_gotos
  | tail _ step => exact step.mem_gotos

/-- Rules of one symbol lead to states of lower rank. -/
theorem ReductionsEnd.rank_lt
    (ends : table.ReductionsEnd store)
    (known : table.HasState below)
    (step : table.UnitStep store below kind state next) :
    table.rank store below kind next < table.rank store below kind state := by
  refine Set.ncard_lt_ncard ?_ (table.unitTargets_finite store below kind state)
  refine (Set.ssubset_iff_of_subset ?_).mpr ⟨next, .single step, ?_⟩
  · intro later reached
    exact .head step reached
  · exact ends.acyclic below kind next known

/-- Steps that lead from each state of a table to a lower number never go round in a circle. -/
theorem not_transGen_of_descends
    (number : Value → Nat)
    (descends :
      ∀ {state next},
        table.HasState state →
          table.UnitStep store below kind state next →
            number next < number state)
    (state : Value) :
    ¬ Relation.TransGen (table.UnitStep store below kind) state state := by
  have reached :
      ∀ {next},
        Relation.TransGen (table.UnitStep store below kind) state next →
          table.HasState next := by
    intro next steps
    cases steps with
    | single step => exact step.hasState
    | tail _ step => exact step.hasState
  have lower :
      ∀ {next},
        table.HasState state →
          Relation.TransGen (table.UnitStep store below kind) state next →
            number next < number state := by
    intro next known steps
    induction steps with
    | single step => exact descends known step
    | tail steps step inductionHypothesis =>
        exact (descends (reached steps) step).trans inductionHypothesis
  exact fun circle => Nat.lt_irrefl _ (lower (reached circle) circle)

/--
Whether no rule of a table is empty, and every goto after a rule of one symbol leads to a
state with a lower number than the one that the rule is for.
-/
def descends
    (table : Table)
    (number : Value → Nat) :
    Bool :=
  table.actions.all fun cell =>
    match cell.entry with
    | .action (.reduce .direct (.production production)) =>
        !production.body.isEmpty &&
          table.gotos.all fun goto =>
            production.length != 1 ||
              !goto.column.equals production.head ||
              decide (number goto.entry.canonical < number cell.state.canonical)
    | _ => true

section Descends

variable
  {number : Value → Nat}
  {cell : Cell}
  {production : Production}
  (descending : table.descends number = true)
  (member : cell ∈ table.actions)
  (reduces : cell.entry = .action (.reduce .direct (.production production)))

include descending member reduces

theorem body_of_descends :
    production.body ≠ [] := by
  have checked := List.all_eq_true.mp descending cell member
  rw [reduces] at checked
  have filled := (Bool.and_eq_true_iff.mp checked).1
  intro isEmpty
  rw [isEmpty] at filled
  cases filled

theorem number_lt_of_descends
    {goto : Cell}
    (gotoMember : goto ∈ table.gotos)
    (single : production.length = 1)
    (headed : goto.column.equals production.head = true) :
    number goto.entry.canonical < number cell.state.canonical := by
  have checked := List.all_eq_true.mp descending cell member
  rw [reduces] at checked
  have lower := List.all_eq_true.mp (Bool.and_eq_true_iff.mp checked).2 goto gotoMember
  simpa [single, headed] using lower

end Descends

/-- The reductions of an orderly table end if its states can be numbered so. -/
theorem Orderly.reductionsEnd
    (orderly : table.Orderly)
    {number : Value → Nat}
    (descending : table.descends number = true)
    (store : Store) :
    table.ReductionsEnd store where
  bodies := fun cell member production reduces =>
    body_of_descends descending member reduces
  acyclic := by
    intro below kind state belowKnown
    refine not_transGen_of_descends (fun state => number state.canonical) ?_ state
    intro state next known step
    have constants := orderly.constantStates store
    cases step with
    | intro entry single headed goto present =>
        obtain missing | ⟨cell, member, same, filed⟩ :=
          constants.action_isFor (constants.states state known) entry
        · cases missing
        obtain rfl | ⟨other, otherMember, rfl, otherFiled⟩ :=
          constants.goto_isFor (constants.states below belowKnown) goto
        · cases present
        have cellConstant := (orderly.actions cell member).1
        have stateConstant := orderly.isConstant_of_hasState known
        have columnConstant :=
          (Bool.and_eq_true_iff.mp (orderly.gotos other otherMember).1).2
        have sameState := (Bool.and_eq_true_iff.mp filed).1
        have sameHead := (Bool.and_eq_true_iff.mp otherFiled).2
        rw [store.reading_constant cellConstant, store.reading_constant stateConstant,
          Value.equals_iff_canonical cellConstant stateConstant] at sameState
        rw [store.reading_constant columnConstant, ← headed] at sameHead
        rw [← sameState]
        exact number_lt_of_descends descending member same otherMember single sameHead

end Table

namespace Situation

/-- The rank of the state on top, above the state below it and before the lookahead. -/
noncomputable def topRank
    (table : Table)
    (store : Store) :
    List Value → List Value → Nat
  | state :: below :: _, token :: _ =>
      match token.kind? with
      | some kind => table.rank store below kind state
      | none => 0
  | _, _ => 0

/-- What each action lessens: the tokens left, the height of the stack, the rank of its top. -/
noncomputable def weight
    (table : Table)
    (store : Store)
    (situation : Situation) :
    ℕ ×ₗ ℕ ×ₗ ℕ :=
  toLex
    (situation.pending.length,
      toLex
        (situation.states.length,
          topRank table store situation.states situation.pending))

variable
  {table : Table}
  {store held : Store}
  {situation next : Situation}
  {decision : Decision}

/-- A reduction by a rule of one symbol puts a state of lower rank on top. -/
theorem topRank_lt
    (ends : table.ReductionsEnd store)
    {state below target token : Value}
    {kind : String}
    (known : table.HasState below)
    (named : token.kind? = some kind)
    (step : table.UnitStep store below kind state target)
    (states pending : List Value) :
    topRank table store (target :: below :: states) (token :: pending) <
      topRank table store (state :: below :: states) (token :: pending) := by
  simp only [topRank, named]
  exact ends.rank_lt known step

/-- Every action that does not end a run lessens the weight. -/
theorem Moves.weight_lt
    (ends : table.ReductionsEnd store)
    (known : ∀ state ∈ situation.states, table.HasState state)
    (answers : table.SameAnswers held store)
    (sanctioned : situation.Sanctions table held decision)
    (moved : Situation.Moves decision situation next)
    (goesOn : ∀ state, decision ≠ .accept state) :
    next.weight table store < situation.weight table store := by
  cases moved with
  | shift =>
      refine Prod.Lex.toLex_lt_toLex.mpr (.inl ?_)
      exact Nat.lt_succ_self _
  | @accept state => exact absurd rfl (goesOn state)
  | @reduce state target production head states pending symbols headed =>
      cases sanctioned with
      | @reduce _ token exposed _ kind _ top lookahead named entry shallow exposes
          goto present =>
          change states.head? = some state at top
          change pending.head? = some token at lookahead
          change states[production.length]? = some exposed at exposes
          have hasBody : 0 < production.length := by
            obtain missing | ⟨cell, member, same⟩ := Table.action_mem entry
            · cases missing
            · exact List.length_pos_iff.mpr (ends.bodies cell member production same)
          have deep : production.length < states.length :=
            (List.getElem?_eq_some_iff.mp exposes).1
          refine Prod.Lex.toLex_lt_toLex.mpr (.inr ⟨rfl, ?_⟩)
          refine Prod.Lex.toLex_lt_toLex.mpr ?_
          rcases Nat.lt_or_eq_of_le hasBody with several | single
          · -- Two symbols or more give way to one, so the stack gets lower.
            refine .inl ?_
            simp only [List.length_cons, List.length_drop]
            omega
          · -- One symbol gives way to another: only the rank of the top can tell.
            obtain ⟨above, rfl⟩ := List.head?_eq_some_iff.mp top
            obtain ⟨later, rfl⟩ := List.head?_eq_some_iff.mp lookahead
            rw [← single, List.getElem?_cons_succ, ← List.head?_eq_getElem?] at exposes
            obtain ⟨rest, rfl⟩ := List.head?_eq_some_iff.mp exposes
            have stateKnown := known state List.mem_cons_self
            have exposedKnown :=
              known exposed (List.mem_cons_of_mem state List.mem_cons_self)
            have step : table.UnitStep store exposed kind state target :=
              .intro (((answers state stateKnown).1 kind).trans entry) single.symm
                headed
                (((answers exposed exposedKnown).2 head).trans (headed ▸ goto))
                present
            rw [← single]
            exact .inr ⟨rfl, topRank_lt ends exposedKnown named step rest later⟩

end Situation

end ShiftReduce
