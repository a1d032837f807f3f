import ShiftReduce.Proofs.Run.Settlement
import ShiftReduce.Proofs.Run.Verdict

namespace ShiftReduce

/-!
# Twin situations

Two parses with the same states and with symbols and next tokens that cannot be told apart
behind a mask are twins.  Carrying out actions that cannot be told apart leaves them twins
(`Situation.Twins.moves`), and consumes what is ahead of both shift by shift.
-/

/-- How many of a number of tokens that come next an action leaves. -/
def Decision.leaves
    (ahead : Nat) :
    Decision → Nat
  | .shift .. => ahead - 1
  | _ => ahead

/-- The actions of a list up to and including the shift of a number. -/
def Decision.throughShift :
    Nat → List Decision → List Decision
  | 0, _ => []
  | _ + 1, [] => []
  | ahead + 1, decision :: rest =>
      decision :: throughShift (decision.leaves (ahead + 1)) rest

/-- Masked or not, an action leaves as many tokens. -/
theorem Mask.leaves_decision
    (mask : Mask)
    (decision : Decision)
    (ahead : Nat) :
    (mask.decision decision).leaves ahead = decision.leaves ahead := by
  cases decision <;> rfl

namespace Situation

/-- A parse that has come through states of a table, with nothing but given tokens about. -/
structure Within
    (table : Table)
    (input : List Token)
    (situation : Situation) :
    Prop where
  known : ∀ state ∈ situation.states, table.HasState state
  tokens : ∀ value ∈ situation.pending, ∃ token ∈ input, value = .token token
  shifted :
    ∀ token,
      .token token ∈ situation.symbols → token ∈ input ∨ token = .epsilon

theorem Within.holdsTokens
    {table : Table}
    {input : List Token}
    {situation : Situation}
    (within : situation.Within table input) :
    situation.HoldsTokens := by
  intro value member
  obtain ⟨token, _, rfl⟩ := within.tokens value member
  exact ⟨token, rfl⟩

theorem Within.lookahead
    {table : Table}
    {input : List Token}
    {situation : Situation}
    {token : Token}
    {rest : List Value}
    (within : situation.Within table input)
    (queue : situation.pending = .token token :: rest) :
    token ∈ input := by
  obtain ⟨found, member, same⟩ :=
    within.tokens (.token token) (by rw [queue]; exact List.mem_cons_self)
  cases same
  exact member

/-- A sanctioned action leads to states of the table only, and brings in no other tokens. -/
theorem Moves.within
    {table : Table}
    {store : Store}
    {input : List Token}
    {decision : Decision}
    {before after : Situation}
    (moves : Moves decision before after)
    (sanctioned : before.Sanctions table store decision)
    (within : before.Within table input) :
    after.Within table input := by
  cases moves with
  | @shift _ next first carried states pending symbols =>
      cases sanctioned with
      | shift top lookahead named entry =>
          cases lookahead
          refine ⟨?_, fun value member =>
            within.tokens value (List.mem_cons_of_mem _ member), ?_⟩
          · intro state member
            rcases List.mem_cons.mp member with rfl | below
            · exact Table.hasState_of_action entry
            · exact within.known state below
          · intro token member
            rcases List.mem_cons.mp member with same | below
            · cases same
              exact .inl (within.lookahead rfl)
            · exact within.shifted token below
  | reduce headed =>
      cases sanctioned with
      | reduce top lookahead named entry shallow exposes goto present =>
          refine ⟨?_, within.tokens, ?_⟩
          · intro state member
            rcases List.mem_cons.mp member with rfl | below
            · exact Table.hasState_of_goto goto present
            · exact within.known state (List.mem_of_mem_drop below)
          · intro token member
            rcases List.mem_cons.mp member with same | below
            · cases same
            · exact within.shifted token (List.mem_of_mem_drop below)
  | accept => exact within

theorem Moves.pending_le
    {decision : Decision}
    {before after : Situation}
    (moves : Moves decision before after) :
    after.pending.length ≤ before.pending.length := by
  cases moves with
  | shift => exact Nat.le_succ _
  | reduce headed => exact Nat.le_refl _
  | accept => exact Nat.le_refl _

theorem Remains.pending_eq
    {decision : Decision}
    {before after : Situation}
    (remains : before.Remains decision after) :
    after.pending = before.pending := by
  cases remains with
  | shift noToken => rfl
  | reduce noHead => rfl

/--
Two situations with the same states, and with symbols that cannot be told apart behind a
mask; nor can a number of tokens that come next, before what is left on either side.
-/
structure Twins
    (mask : Mask)
    (ahead : Nat)
    (left right : List Value)
    (first second : Situation) :
    Prop where
  states : second.states = first.states
  symbols : second.symbols.map mask.symbol = first.symbols.map mask.symbol
  pending :
    ∃ common other : List Token,
      common.length = ahead ∧
        first.pending = common.map .token ++ left ∧
        second.pending = other.map .token ++ right ∧
        other.map mask.hide = common.map mask.hide

section Twins

variable
  {mask : Mask}
  {ahead : Nat}
  {left right : List Value}
  {first second : Situation}

theorem Twins.symbols_length
    (twins : Twins mask ahead left right first second) :
    second.symbols.length = first.symbols.length := by
  rw [← List.length_map mask.symbol, twins.symbols, List.length_map]

theorem Twins.pending_length
    (twins : Twins mask ahead left right first second) :
    first.pending.length = ahead + left.length ∧
      second.pending.length = ahead + right.length := by
  obtain ⟨common, other, length, queue, otherQueue, masked⟩ := twins.pending
  have sameLength := congrArg List.length masked
  rw [List.length_map, List.length_map] at sameLength
  rw [queue, otherQueue]
  simp [length, sameLength]

/-- Actions that cannot be told apart lead twins to twins. -/
theorem Twins.moves
    {decision otherDecision : Decision}
    {next otherNext : Situation}
    (twins : Twins mask ahead left right first second)
    (near : 0 < ahead)
    (moves : Moves decision first next)
    (otherMoves : Moves otherDecision second otherNext)
    (masked : mask.decision otherDecision = mask.decision decision) :
    Twins mask (decision.leaves ahead) left right next otherNext := by
  obtain ⟨states, symbols, common, other, length, queue, otherQueue, same⟩ :=
    twins
  cases moves with
  | shift =>
      cases otherMoves with
      | reduce => cases masked
      | accept => cases masked
      | shift =>
          obtain ⟨_, sameToken, sameNext⟩ := Decision.shift.inj masked
          have sameSymbol := Value.token.inj sameToken
          cases common with
          | nil =>
              subst length
              cases near
          | cons next rest =>
              cases other with
              | nil => cases same
              | cons otherNext otherRest =>
                  refine ⟨?_, ?_, rest, otherRest, ?_,
                    (List.cons.inj queue).2, (List.cons.inj otherQueue).2,
                    (List.cons.inj same).2⟩
                  · dsimp only at states ⊢
                    rw [sameNext, states]
                  · simp only [List.map_cons, Mask.symbol, sameSymbol, symbols]
                  · rw [← length]
                    rfl
  | reduce headed =>
      cases otherMoves with
      | shift => cases masked
      | accept => cases masked
      | reduce otherHeaded =>
          obtain ⟨_, sameRule, sameNext⟩ := Decision.reduce.inj masked
          subst sameRule sameNext
          rw [headed] at otherHeaded
          cases otherHeaded
          refine ⟨?_, ?_, common, other, length, queue, otherQueue, same⟩
          · dsimp only at states ⊢
            rw [states]
          · simp only [List.map_cons, List.map_drop, symbols]
  | accept =>
      cases otherMoves with
      | shift => cases masked
      | reduce => cases masked
      | accept =>
          exact ⟨states, symbols, common, other, length, queue, otherQueue,
            same⟩

/-- Twins with nothing masked and the same left on both sides are the same. -/
theorem Twins.eq
    (twins : Twins .nothing ahead left left first second) :
    second = first := by
  obtain ⟨states, symbols, common, other, _, queue, otherQueue, same⟩ := twins
  have sameTokens : other = common := by
    simpa [Mask.nothing] using same
  rw [sameTokens, ← queue] at otherQueue
  rw [Mask.nothing_symbol, List.map_id, List.map_id] at symbols
  cases first
  cases second
  cases states
  cases symbols
  cases otherQueue
  rfl

end Twins

end Situation

/-- A loaded parser is in the initial state, with all of its tokens to come. -/
theorem Parser.Loaded.within
    {parser : Parser}
    {table : Table}
    {input : List Token}
    (loaded : parser.Loaded table (input.map .token)) :
    parser.situation.Within table input where
  known := by
    intro state member
    change state ∈ parser.states at member
    rw [loaded.states] at member
    rw [List.mem_singleton.mp member]
    exact .initial
  tokens := by
    intro value member
    change value ∈ parser.pending at member
    rw [loaded.pending] at member
    obtain ⟨token, listed, rfl⟩ := List.mem_map.mp member
    exact ⟨token, listed, rfl⟩
  shifted := by
    intro token member
    change .token token ∈ parser.symbols at member
    rw [loaded.symbols] at member
    cases List.mem_singleton.mp member
    exact .inr rfl

end ShiftReduce
