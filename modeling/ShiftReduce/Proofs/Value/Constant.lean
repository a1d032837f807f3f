import ShiftReduce.Value.Store

namespace ShiftReduce

/-!
# Constants

Constants are what cannot change and mentions nothing that can: nothing at all,
truth values, integers, texts, non-terminals, and tuples of constants.  They have
a shown form and a hash key, they are what they are with any store, and comparing
them never fails.
-/

mutual

/-- Whether a value is made of atoms and tuples alone. -/
def Value.isConstant :
    Value → Bool
  | .none => true
  | .bool _ => true
  | .int _ => true
  | .text _ => true
  | .nonterminal _ => true
  | .tuple items => Value.areConstants items
  | _ => false
termination_by structural value => value

/-- Whether all of several values are constants. -/
def Value.areConstants :
    List Value → Bool
  | [] => true
  | value :: rest => value.isConstant && Value.areConstants rest
termination_by structural values => values

end

/-- Things with the same hash key, or both without one, may be one key. -/
theorem HashKey.mayMeet_self
    (key : Except Fault HashKey) :
    HashKey.mayMeet key key = true := by
  cases key with
  | error cause => rfl
  | ok key => exact decide_eq_true rfl

namespace Value

theorem areConstants_iff
    {values : List Value} :
    areConstants values = true ↔ ∀ value ∈ values, value.isConstant = true := by
  induction values with
  | nil =>
      simp [areConstants]
  | cons value rest inductionHypothesis =>
      simp [areConstants, inductionHypothesis]

/-- What holds of atoms, and of tuples of constants of which it holds, holds of constants. -/
theorem constant_induction
    {motive : (value : Value) → value.isConstant = true → Prop}
    (none : motive .none rfl)
    (bool : ∀ truth, motive (.bool truth) rfl)
    (int : ∀ number, motive (.int number) rfl)
    (text : ∀ content, motive (.text content) rfl)
    (nonterminal : ∀ carried, motive (.nonterminal carried) rfl)
    (tuple :
      ∀ items (constant : (Value.tuple items).isConstant = true),
        (∀ item (member : item ∈ items),
          motive item (areConstants_iff.mp constant item member)) →
          motive (.tuple items) constant) :
    ∀ (value : Value) (constant : value.isConstant = true),
      motive value constant
  | .none, _ => none
  | .bool truth, _ => bool truth
  | .int number, _ => int number
  | .text content, _ => text content
  | .nonterminal carried, _ => nonterminal carried
  | .tuple items, constant =>
      tuple items constant fun item member =>
        constant_induction none bool int text nonterminal tuple item
          (areConstants_iff.mp constant item member)
termination_by value => sizeOf value
decreasing_by
  have smaller := List.sizeOf_lt_of_mem member
  simp only [Value.tuple.sizeOf_spec]
  omega

/-- A constant is no mention of anything. -/
theorem isMention_constant
    {value : Value}
    (constant : value.isConstant = true) :
    value.isMention = false := by
  cases value with
  | shared sort place => cases constant
  | _ => rfl

/-- Expanding several values expands each of them. -/
theorem expandAll_eq_map
    (fill : Filling)
    (values : List Value) :
    expandAll fill values = values.map (·.expand fill) := by
  induction values with
  | nil =>
      rfl
  | cons value rest inductionHypothesis =>
      simp [expandAll, inductionHypothesis]

/-- A constant mentions nothing that could be expanded. -/
theorem expand_constant
    (fill : Filling)
    {value : Value}
    (constant : value.isConstant = true) :
    value.expand fill = value := by
  induction value, constant using constant_induction with
  | tuple items _ inductionHypothesis =>
      have unchanged : items.map (·.expand fill) = items := by
        conv => rhs; rw [← List.map_id items]
        exact List.map_congr_left inductionHypothesis
      simp only [expand, expandAll_eq_map, unchanged]
  | _ =>
      rfl

/-- Every constant has a hash key. -/
theorem hashKey_constant
    {value : Value}
    (constant : value.isConstant = true) :
    ∃ key, value.hashKey = .ok key := by
  induction value, constant using constant_induction with
  | bool truth =>
      cases truth
      · exact ⟨_, rfl⟩
      · exact ⟨_, rfl⟩
  | tuple items constant inductionHypothesis =>
      obtain ⟨keys, keyed⟩ : ∃ keys, hashKeys items = .ok keys := by
        clear constant
        induction items with
        | nil =>
            exact ⟨_, rfl⟩
        | cons item rest restHypothesis =>
            obtain ⟨key, first⟩ := inductionHypothesis item List.mem_cons_self
            obtain ⟨keys, others⟩ :=
              restHypothesis fun other member =>
                inductionHypothesis other (List.mem_cons_of_mem item member)
            refine ⟨key ++ keys, ?_⟩
            simp [hashKeys, first, others, bind, Except.bind, pure, Except.pure]
      refine ⟨.sequence keys, ?_⟩
      simp [hashKey, keyed, bind, Except.bind, pure, Except.pure]
  | _ =>
      exact ⟨_, rfl⟩

/-- Lists that are compared place by place agree when the first members and the rest do. -/
theorem agreesAll_byPlace_cons
    (first second : Value)
    (firstRest secondRest : List Value) :
    Id.run (agreesAll .byPlace (first :: firstRest) (second :: secondRest)) =
      (first.equals second &&
        Id.run (agreesAll .byPlace firstRest secondRest)) := by
  cases verdict : first.equals second with
  | true =>
      have agrees : first.agrees .byPlace second = true := verdict
      simp only [agreesAll, bothHold, bind, agrees, Id.run, Bool.true_and,
        if_true]
  | false =>
      have agrees : first.agrees .byPlace second = false := verdict
      simp only [agreesAll, bothHold, bind, agrees, Id.run, Bool.false_and]
      rfl

/-- Constants that are equal have the same key. -/
theorem hashKey_of_equal_constants
    {first second : Value}
    (constant : first.isConstant = true)
    (equal : first.equals second = true) :
    first.hashKey = second.hashKey := by
  induction first, constant using constant_induction generalizing second with
  | none =>
      cases second with
      | none => rfl
      | _ => cases equal
  | bool truth =>
      cases second with
      | bool other =>
          obtain rfl := eq_of_beq equal
          rfl
      | int number =>
          obtain rfl := eq_of_beq equal
          cases truth <;> rfl
      | _ => cases equal
  | int number =>
      cases second with
      | bool truth =>
          obtain rfl := eq_of_beq equal
          cases truth <;> rfl
      | int other =>
          obtain rfl := eq_of_beq equal
          rfl
      | _ => cases equal
  | text content =>
      cases second with
      | text other =>
          obtain rfl := eq_of_beq equal
          rfl
      | _ => cases equal
  | nonterminal carried =>
      cases second with
      | nonterminal other =>
          obtain rfl := eq_of_beq equal
          rfl
      | _ => cases equal
  | tuple items constant inductionHypothesis =>
      cases second with
      | tuple others =>
          have keys : hashKeys items = hashKeys others := by
            clear constant
            change Id.run (agreesAll .byPlace items others) = true at equal
            induction items generalizing others with
            | nil =>
                cases others with
                | nil => rfl
                | cons => cases equal
            | cons item rest restHypothesis =>
                cases others with
                | nil => cases equal
                | cons other remaining =>
                    rw [agreesAll_byPlace_cons, Bool.and_eq_true] at equal
                    rw [hashKeys, hashKeys,
                      inductionHypothesis item List.mem_cons_self equal.1,
                      restHypothesis
                        (fun value member =>
                          inductionHypothesis value (List.mem_cons_of_mem item member))
                        remaining equal.2]
          rw [hashKey, hashKey, keys]
      | _ => cases equal

/-- Sequences agree as what their members read as does, one after the other. -/
theorem agreesAll_of_agrees
    {how : Comparison (Except Fault)}
    (reading otherReading : Value → Value)
    {items others : List Value}
    (each :
      ∀ item ∈ items, ∀ other ∈ others,
        item.agrees how other =
          .ok ((reading item).equals (otherReading other))) :
    agreesAll how items others =
      .ok
        (Id.run
          (agreesAll .byPlace (items.map reading)
            (others.map otherReading))) := by
  induction items generalizing others with
  | nil =>
      cases others with
      | nil => rfl
      | cons other remaining => rfl
  | cons item rest inductionHypothesis =>
      cases others with
      | nil => rfl
      | cons other remaining =>
          have firstVerdict :=
            each item List.mem_cons_self other List.mem_cons_self
          have restVerdict :=
            inductionHypothesis fun value member partner partnerMember =>
              each value (List.mem_cons_of_mem item member) partner
                (List.mem_cons_of_mem other partnerMember)
          rw [List.map_cons, List.map_cons, agreesAll_byPlace_cons]
          simp only [agreesAll, bothHold, firstVerdict, restVerdict, bind,
            Except.bind]
          cases (reading item).equals (otherReading other) with
          | false => rfl
          | true => rfl

/-- Comparing constants leads to a verdict, whatever becomes of mentions. -/
theorem agrees_constant
    {how : Comparison (Except Fault)}
    (apart :
      ∀ first second : Value,
        first.isConstant = true → second.isConstant = true →
          how.unlike first second = .ok (first.samePlace second))
    {first : Value}
    (firstConstant : first.isConstant = true)
    {second : Value}
    (secondConstant : second.isConstant = true) :
    first.agrees how second = .ok (first.equals second) := by
  induction first, firstConstant using constant_induction generalizing second with
  | tuple items constant inductionHypothesis =>
      cases second with
      | tuple others =>
          have alike :=
            agreesAll_of_agrees id id fun item member other otherMember =>
              inductionHypothesis item member
                (areConstants_iff.mp secondConstant other otherMember)
          rwa [List.map_id, List.map_id] at alike
      | _ =>
          exact apart _ _ constant secondConstant
  | none =>
      cases second with
      | none => rfl
      | _ => exact apart _ _ rfl secondConstant
  | bool truth =>
      cases second with
      | bool other => rfl
      | int other => rfl
      | _ => exact apart _ _ rfl secondConstant
  | int number =>
      cases second with
      | bool other => rfl
      | int other => rfl
      | _ => exact apart _ _ rfl secondConstant
  | text content =>
      cases second with
      | text other => rfl
      | _ => exact apart _ _ rfl secondConstant
  | nonterminal carried =>
      cases second with
      | nonterminal other => rfl
      | _ => exact apart _ _ rfl secondConstant

end Value

namespace Store

variable (store : Store)

/-- A value that mentions nothing is what it is with any store. -/
theorem resolve_of_closed
    {value : Value}
    (closed : ∀ fill, value.expand fill = value) :
    store.resolve value = value := by
  unfold resolve levels
  rw [Nat.succ_mul]
  exact closed _

/-- A constant is what it is with any store. -/
theorem resolve_constant
    {value : Value}
    (constant : value.isConstant = true) :
    store.resolve value = value :=
  store.resolve_of_closed fun fill => Value.expand_constant fill constant

/-- Comparing constants goes through no container that lies in a store. -/
theorem sameWithin_constant
    (containers : Nat)
    {first second : Value}
    (firstConstant : first.isConstant = true)
    (secondConstant : second.isConstant = true) :
    store.sameWithin (containers + 1) first second =
      .ok (first.equals second) := by
  apply Value.agrees_constant _ firstConstant secondConstant
  intro first second firstConstant secondConstant
  cases samePlace : first.samePlace second with
  | true => simp [samePlace]
  | false =>
      simp [samePlace, Value.isMention_constant firstConstant,
        Value.isMention_constant secondConstant]

/-- Constants are the same when they are equal, with any store. -/
theorem same_constant
    {first second : Value}
    (firstConstant : first.isConstant = true)
    (secondConstant : second.isConstant = true) :
    store.same first second = .ok (first.equals second) :=
  store.sameWithin_constant (deepest - 1) firstConstant secondConstant

/-- Equals that may meet as keys are the same key, and what is not equal is not. -/
theorem judgeKeys_ok
    {first second : Value}
    {holds : Bool}
    (meet :
      holds = true →
        HashKey.mayMeet (store.hashKey first) (store.hashKey second) = true) :
    store.judgeKeys first second (.ok holds) = .ok holds := by
  cases holds with
  | false => rfl
  | true => exact if_pos (meet rfl)

/-- A dictionary takes constants for the same key when they are equal. -/
theorem sameKey_constant
    {first second : Value}
    (firstConstant : first.isConstant = true)
    (secondConstant : second.isConstant = true) :
    store.sameKey first second = .ok (first.equals second) := by
  rw [sameKey, store.same_constant firstConstant secondConstant]
  apply judgeKeys_ok
  intro equal
  rw [hashKey, hashKey, store.resolve_constant firstConstant,
    store.resolve_constant secondConstant,
    Value.hashKey_of_equal_constants firstConstant equal]
  exact HashKey.mayMeet_self _

end Store

end ShiftReduce
