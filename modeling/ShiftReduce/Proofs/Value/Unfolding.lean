import Mathlib.Data.Nat.Find
import ShiftReduce.Proofs.Value.Reading

namespace ShiftReduce

/-!
# Hash keys as things stand

Looking through the places of a store stops where a place comes up inside itself, and
where it stops depends on how one got there.  For hash keys that makes no difference.
What comes up inside itself has no key in any case, and a value that has one is made of
finitely many parts, which looking through finds from wherever it starts.

`Store.unfold` puts contents for mentions without minding where it is, as many times as
it is told.  The key of a value is the one that it has unfolded often enough
(`Store.hashKey_resolveWithin_of_unfold`), so that a mention has the key of what lies at
its place (`Store.hashKey_contentAt`).
-/

/-- An attempt that succeeds only as another does. -/
def SucceedsAs
    {α : Type}
    (attempt other : Except Fault α) :
    Prop :=
  ∀ result, attempt = .ok result → other = .ok result

namespace SucceedsAs

variable {α β : Type}

theorem refl
    (attempt : Except Fault α) :
    SucceedsAs attempt attempt :=
  fun _ => id

theorem trans
    {attempt other third : Except Fault α}
    (first : SucceedsAs attempt other)
    (second : SucceedsAs other third) :
    SucceedsAs attempt third :=
  fun result succeeded => second result (first result succeeded)

/-- What fails succeeds as anything does. -/
theorem error
    (cause : Fault)
    (other : Except Fault α) :
    SucceedsAs (.error cause) other :=
  nofun

theorem bind
    {attempt other : Except Fault α}
    {next otherNext : α → Except Fault β}
    (first : SucceedsAs attempt other)
    (second : ∀ result, SucceedsAs (next result) (otherNext result)) :
    SucceedsAs (attempt >>= next) (other >>= otherNext) := by
  cases attempt with
  | error cause => exact error cause _
  | ok result =>
      have succeeded : other = .ok result := first result rfl
      subst succeeded
      exact second result

end SucceedsAs

/-- One filling has, wherever something has a key in another, the same with that key. -/
structure Filling.KeyedAs
    (fill more : Filling) :
    Prop where
  mention :
    ∀ sort place,
      SucceedsAs
        (fill.mention sort place).hashKey (more.mention sort place).hashKey
  gap :
    ∀ sort place,
      SucceedsAs (fill.gap sort place).hashKey (more.gap sort place).hashKey

/-- The filling that leaves mentions as they are. -/
def Filling.leaving : Filling where
  mention := .shared
  gap := .shared

/-- What is left a mention has no key, so that anything may stand for it. -/
theorem Filling.leaving_keyedAs
    (more : Filling) :
    Filling.leaving.KeyedAs more where
  mention _ _ := .error _ _
  gap _ _ := .error _ _

section Expansion

mutual

theorem Value.expand_leaving :
    ∀ value : Value, value.expand .leaving = value
  | .none => rfl
  | .bool _ => rfl
  | .int _ => rfl
  | .text _ => rfl
  | .list items => congrArg Value.list (Value.expandAll_leaving items)
  | .tuple items => congrArg Value.tuple (Value.expandAll_leaving items)
  | .dict entries => congrArg Value.dict (Value.expandEntries_leaving entries)
  | .shared _ _ => rfl
  | .token carried => congrArg Value.token (Token.expand_leaving carried)
  | .nonterminal _ => rfl
  | .symbol (.token wrapped) =>
      congrArg (fun wrapped => Value.symbol (.token wrapped))
        (Token.expand_leaving wrapped)
  | .symbol (.nonterminal _) => rfl
  | .symbol (.bare _) => rfl
  | .production carried =>
      congrArg Value.production (Production.expand_leaving carried)
  | .action carried => congrArg Value.action (Action.expand_leaving carried)
  | .table _ => rfl

theorem Value.expandAll_leaving :
    ∀ values : List Value, Value.expandAll .leaving values = values
  | [] => rfl
  | value :: rest => by
      rw [Value.expandAll, Value.expand_leaving value,
        Value.expandAll_leaving rest]

theorem Value.expandEntries_leaving :
    ∀ entries : List (Value × Value),
      Value.expandEntries .leaving entries = entries
  | [] => rfl
  | (key, value) :: rest => by
      rw [Value.expandEntries, Value.expand_leaving key,
        Value.expand_leaving value, Value.expandEntries_leaving rest]

theorem Token.expand_leaving :
    ∀ token : Token, token.expand .leaving = token
  | ⟨_, _, value⟩ => by
      rw [Token.expand, Value.expand_leaving value]

theorem Production.expand_leaving :
    ∀ production : Production, production.expand .leaving = production
  | ⟨_, head, body, index⟩ => by
      have headStays := Value.expand_leaving head
      have bodyStays := Value.expandAll_leaving body
      have indexStays := Value.expand_leaving index
      unfold Production.expand
      split
      · next identity sort place other fits =>
          cases fits
          rw [indexStays]
          rfl
      · next fits =>
          cases fits
          rw [headStays, bodyStays, indexStays]

theorem Action.expand_leaving :
    ∀ action : Action, action.expand .leaving = action
  | .shift _ next => by
      rw [Action.expand, Value.expand_leaving next]
  | .reduce _ rule => by
      have ruleStays := Value.expand_leaving rule
      cases rule with
      | shared => rfl
      | _ => exact congrArg _ ruleStays
  | .accept _ => rfl
  | .error _ => rfl
  | .unknown _ => rfl

end

variable {fill more : Filling}

mutual

/-- A value that has a key keeps it if its mentions are filled with what has keys alike. -/
theorem Value.hashKey_expand
    (keyed : fill.KeyedAs more) :
    ∀ value : Value,
      SucceedsAs (value.expand fill).hashKey (value.expand more).hashKey
  | .none => .refl _
  | .bool _ => .refl _
  | .int _ => .refl _
  | .text _ => .refl _
  | .list _ => .error _ _
  | .tuple items => .bind (Value.hashKeys_expandAll keyed items) fun _ => .refl _
  | .dict _ => .error _ _
  | .shared sort place => keyed.mention sort place
  | .token ⟨_, _, _⟩ => .refl _
  | .nonterminal _ => .refl _
  | .symbol (.token ⟨_, _, _⟩) => .refl _
  | .symbol (.nonterminal _) => .refl _
  | .symbol (.bare _) => .refl _
  | .production carried => Production.hashKey_expand keyed carried
  | .action carried => Action.hashKey_expand keyed carried
  | .table _ => .refl _

theorem Value.hashKeys_expandAll
    (keyed : fill.KeyedAs more) :
    ∀ values : List Value,
      SucceedsAs
        (Value.hashKeys (Value.expandAll fill values))
        (Value.hashKeys (Value.expandAll more values))
  | [] => .refl _
  | value :: rest =>
      .bind (Value.hashKey_expand keyed value) fun _ =>
        .bind (Value.hashKeys_expandAll keyed rest) fun _ => .refl _

theorem Production.hashKey_expand
    (keyed : fill.KeyedAs more) :
    ∀ production : Production,
      SucceedsAs
        (production.expand fill).hashKey (production.expand more).hashKey
  | ⟨_, head, body, _⟩ => by
      have heads := Value.hashKey_expand keyed head
      have bodies := Value.hashKeys_expandAll keyed body
      cases head with
      | shared sort place =>
          cases body with
          | nil => exact .bind (keyed.gap sort place) fun _ => .refl _
          | cons => exact .bind heads fun _ => .bind bodies fun _ => .refl _
      | _ => exact .bind heads fun _ => .bind bodies fun _ => .refl _

theorem Action.hashKey_expand
    (keyed : fill.KeyedAs more) :
    ∀ action : Action,
      SucceedsAs (action.expand fill).hashKey (action.expand more).hashKey
  | .shift _ next => .bind (Value.hashKey_expand keyed next) fun _ => .refl _
  | .reduce _ rule => by
      have rules := Value.hashKey_expand keyed rule
      cases rule with
      | shared sort place => exact .bind (keyed.gap sort place) fun _ => .refl _
      | _ => exact .bind rules fun _ => .refl _
  | .accept _ => .refl _
  | .error _ => .refl _
  | .unknown _ => .refl _

end

/-- A value that has a key has it whatever its mentions are filled with. -/
theorem Value.hashKey_expand_of_ok
    (fill : Filling)
    (value : Value) :
    SucceedsAs value.hashKey (value.expand fill).hashKey := by
  have leaves := Value.hashKey_expand (Filling.leaving_keyedAs fill) value
  rwa [Value.expand_leaving] at leaves

end Expansion

namespace Store

/-- Contents of places put for mentions, and for mentions in them, so many times. -/
def unfold
    (store : Store) :
    (depth : Nat) → Value → Value
  | 0, value => value
  | depth + 1, value =>
      let content _ place := store.unfold depth (store.contentAt place)
      value.expand ⟨content, content⟩

theorem unfold_constant
    (store : Store)
    (depth : Nat)
    {value : Value}
    (constant : value.isConstant = true) :
    store.unfold depth value = value := by
  cases depth with
  | zero => rfl
  | succ depth => exact Value.expand_constant _ constant

/-- A value that has a key after some unfolding has the same after more. -/
theorem hashKey_unfold_mono
    (store : Store)
    {depth more : Nat}
    (enough : depth ≤ more)
    (value : Value) :
    SucceedsAs
      (store.unfold depth value).hashKey (store.unfold more value).hashKey := by
  induction depth generalizing more value with
  | zero =>
      cases more with
      | zero => exact .refl _
      | succ more => exact value.hashKey_expand_of_ok _
  | succ depth inductionHypothesis =>
      obtain ⟨left, rfl⟩ := Nat.exists_eq_add_of_le' enough
      have deeper : depth ≤ left + depth := Nat.le_add_left depth left
      apply Value.hashKey_expand
      exact
        ⟨fun _ _ => inductionHypothesis deeper _,
          fun _ _ => inductionHypothesis deeper _⟩

/-- Looking through places finds no key that unfolding does not find. -/
theorem hashKey_unfold_of_resolveWithin
    (store : Store)
    (levels : Nat)
    (within : List Nat)
    (value : Value) :
    SucceedsAs
      (store.resolveWithin levels within value).hashKey
      (store.unfold levels value).hashKey := by
  induction levels generalizing within value with
  | zero => exact .refl _
  | succ levels inductionHypothesis =>
      have mention :
          ∀ sort place,
            SucceedsAs
              (if within.contains place then
                Value.shared sort place
              else
                store.resolveWithin levels (place :: within)
                  (store.contentAt place)).hashKey
              (store.unfold levels (store.contentAt place)).hashKey := by
        intro sort place
        split
        · exact .error _ _
        · exact inductionHypothesis _ _
      apply Value.hashKey_expand
      refine ⟨mention, fun sort place => ?_⟩
      dsimp only
      split
      · exact inductionHypothesis _ _
      · exact mention sort place

/-- A place that has no key before it has been unfolded so many times. -/
def KeylessBefore
    (store : Store)
    (depth place : Nat) :
    Prop :=
  ∀ earlier < depth,
    ∀ key, (store.unfold earlier (store.contentAt place)).hashKey ≠ .ok key

variable {store : Store}

/-- Nothing lies beyond the places of a store. -/
theorem contentAt_beyond
    (store : Store)
    {place : Nat}
    (beyond : store.contents.size ≤ place) :
    store.contentAt place = .none := by
  simp [contentAt, Array.getElem?_eq_none beyond]

/-- What has a key has it for the first time after some unfolding. -/
theorem exists_first_key
    {depth place : Nat}
    {key : HashKey}
    (keyed : (store.unfold depth (store.contentAt place)).hashKey = .ok key) :
    ∃ first ≤ depth,
      store.KeylessBefore first place ∧
        (store.unfold first (store.contentAt place)).hashKey = .ok key := by
  have someKey :
      ∃ depth key,
        (store.unfold depth (store.contentAt place)).hashKey = .ok key :=
    ⟨depth, key, keyed⟩
  classical
  obtain ⟨firstKey, first⟩ := Nat.find_spec someKey
  have least : Nat.find someKey ≤ depth := Nat.find_min' someKey ⟨key, keyed⟩
  refine ⟨Nat.find someKey, least, ?_, ?_⟩
  · intro earlier before other otherKeyed
    exact Nat.find_min someKey before ⟨other, otherKeyed⟩
  · have later := store.hashKey_unfold_mono least _ firstKey first
    rw [keyed] at later
    cases later
    exact first

/--
Looking through a place finds the key that unfolding finds, if there are as many levels
as places left to enter.

The places entered so far have no key before so much unfolding, so that none of them
comes up again in what has its key by then.
-/
theorem hashKey_resolveWithin_of_unfold
    {levels : Nat}
    {depth place : Nat}
    {key : HashKey}
    {entered within : List Nat}
    (keyed : (store.unfold depth (store.contentAt place)).hashKey = .ok key)
    (keyless : ∀ other ∈ entered, store.KeylessBefore depth other)
    (inside : ∀ other ∈ place :: entered, other < store.contents.size)
    (distinct : (place :: entered).Nodup)
    (subset : within ⊆ place :: entered)
    (enough : store.contents.size ≤ levels + entered.length) :
    (store.resolveWithin levels within (store.contentAt place)).hashKey =
      .ok key := by
  induction levels generalizing depth place key entered within with
  | zero =>
      have subsetAll : place :: entered ⊆ List.range store.contents.size := by
        intro other member
        exact List.mem_range.mpr (inside other member)
      have fits := (distinct.subperm subsetAll).length_le
      simp only [List.length_cons, List.length_range] at fits
      omega
  | succ levels inductionHypothesis =>
      obtain ⟨first, least, unkeyed, keyed⟩ := exists_first_key keyed
      have keylessAll :
          ∀ other ∈ place :: entered, store.KeylessBefore first other := by
        intro other member earlier before
        rcases List.mem_cons.mp member with rfl | wasEntered
        · exact unkeyed earlier before
        · exact keyless other wasEntered earlier (by omega)
      cases first with
      | zero => exact Value.hashKey_expand_of_ok _ _ key keyed
      | succ first =>
          -- A place in it has its key before, so that it is not among those entered.
          have fresh :
              ∀ {other : Nat} {otherKey : HashKey},
                (store.unfold first (store.contentAt other)).hashKey =
                    .ok otherKey →
                  other ∉ place :: entered :=
            fun otherKeyed member =>
              keylessAll _ member first (Nat.lt_succ_self first) _ otherKeyed
          have deeper :
              ∀ (other : Nat) (otherWithin : List Nat),
                otherWithin ⊆ other :: place :: entered →
                  SucceedsAs
                    (store.unfold first (store.contentAt other)).hashKey
                    (store.resolveWithin levels otherWithin
                      (store.contentAt other)).hashKey := by
            intro other otherWithin otherSubset otherKey otherKeyed
            rcases Nat.lt_or_ge other store.contents.size with held | beyond
            · refine inductionHypothesis otherKeyed ?_ ?_ ?_ otherSubset ?_
              · intro entry member earlier before
                exact keylessAll entry member earlier (by omega)
              · intro entry member
                rcases List.mem_cons.mp member with rfl | wasEntered
                · exact held
                · exact inside entry wasEntered
              · exact List.nodup_cons.mpr ⟨fresh otherKeyed, distinct⟩
              · simp only [List.length_cons]
                omega
            · rw [store.contentAt_beyond beyond] at otherKeyed ⊢
              rw [store.unfold_constant first rfl] at otherKeyed
              rwa [store.resolveWithin_constant levels otherWithin rfl]
          have mention :
              ∀ (sort : ContainerSort) (other : Nat),
                SucceedsAs
                  (store.unfold first (store.contentAt other)).hashKey
                  (if within.contains other then
                    Value.shared sort other
                  else
                    store.resolveWithin levels (other :: within)
                      (store.contentAt other)).hashKey := by
            intro sort other otherKey otherKeyed
            have outside : other ∉ within :=
              fun member => fresh otherKeyed (subset member)
            simp only [List.contains_eq_mem, outside, decide_false,
              Bool.false_eq_true, if_false]
            exact
              deeper other _ (List.cons_subset_cons other subset) otherKey
                otherKeyed
          refine Value.hashKey_expand ⟨mention, ?_⟩ _ key keyed
          intro sort other
          dsimp only
          split
          · exact deeper other _ (List.subset_cons_of_subset other subset)
          · exact mention sort other

/-- As many levels as there are places suffice to find the key of what lies at a place. -/
theorem hashKey_resolveWithin_contentAt
    {levels place : Nat}
    {within : List Nat}
    (enough : store.contents.size ≤ levels)
    (subset : within ⊆ [place])
    (depth : Nat) :
    SucceedsAs
      (store.unfold depth (store.contentAt place)).hashKey
      (store.resolveWithin levels within (store.contentAt place)).hashKey := by
  intro key keyed
  rcases Nat.lt_or_ge place store.contents.size with held | beyond
  · have noneEntered : ∀ other ∈ [], store.KeylessBefore depth other := nofun
    refine
      hashKey_resolveWithin_of_unfold keyed noneEntered ?_ (by simp) subset enough
    intro other member
    rwa [List.mem_singleton.mp member]
  · rw [store.contentAt_beyond beyond] at keyed ⊢
    rw [store.unfold_constant depth rfl] at keyed
    rwa [store.resolveWithin_constant levels within rfl]

/-- It does not matter to the key of what lies at a place how it is looked through. -/
theorem hashKey_contentAt
    {levels more place : Nat}
    {within others : List Nat}
    (enough : store.contents.size ≤ more)
    (subset : others ⊆ [place]) :
    SucceedsAs
      (store.resolveWithin levels within (store.contentAt place)).hashKey
      (store.resolveWithin more others (store.contentAt place)).hashKey :=
  (store.hashKey_unfold_of_resolveWithin levels within _).trans
    (hashKey_resolveWithin_contentAt enough subset levels)

end Store

end ShiftReduce
