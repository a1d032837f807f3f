import ShiftReduce.Table.Lookup

namespace ShiftReduce

/-!
# What looking things up fails by

Comparing values fails only by not coming to an end, and a value that cannot be filed is
unhashable.  Neither ever refuses a token.
-/

/-- An attempt that fails, if it does, by what is allowed. -/
def FailsOnlyBy
    {α : Type}
    (allowed : Fault → Prop)
    (attempt : Except Fault α) :
    Prop :=
  ∀ cause, attempt = .error cause → allowed cause

namespace FailsOnlyBy

variable
  {α β : Type}
  {allowed : Fault → Prop}

theorem ok
    (result : α) :
    FailsOnlyBy allowed (.ok result) :=
  nofun

theorem error
    {cause : Fault}
    (isAllowed : allowed cause) :
    FailsOnlyBy allowed (.error cause : Except Fault α) := by
  rintro _ ⟨⟩
  exact isAllowed

/-- One attempt after another fails by what either fails by. -/
theorem bind
    {attempt : Except Fault α}
    {next : α → Except Fault β}
    (first : FailsOnlyBy allowed attempt)
    (others : ∀ result, FailsOnlyBy allowed (next result)) :
    FailsOnlyBy allowed (attempt >>= next) := by
  cases attempt with
  | error cause => exact error (first cause rfl)
  | ok result => exact others result

theorem mono
    {more : Fault → Prop}
    {attempt : Except Fault α}
    (fails : FailsOnlyBy allowed attempt)
    (wider : ∀ cause, allowed cause → more cause) :
    FailsOnlyBy more attempt :=
  fun cause failed => wider cause (fails cause failed)

theorem findM?
    {ask : α → Except Fault Bool}
    {items : List α}
    (each : ∀ item, FailsOnlyBy allowed (ask item)) :
    FailsOnlyBy allowed (items.findM? ask) := by
  induction items with
  | nil => exact ok _
  | cons item rest inductionHypothesis =>
      refine (each item).bind fun verdict => ?_
      cases verdict with
      | true => exact ok _
      | false => exact inductionHypothesis

theorem bothHold
    {first : Except Fault Bool}
    {second : Unit → Except Fault Bool}
    (firstFails : FailsOnlyBy allowed first)
    (secondFails : FailsOnlyBy allowed (second ())) :
    FailsOnlyBy allowed (ShiftReduce.bothHold first second) := by
  refine firstFails.bind fun verdict => ?_
  cases verdict with
  | true => exact secondFails
  | false => exact ok _

end FailsOnlyBy

/-- What a comparison leaves open fails only by what is allowed. -/
structure Comparison.FailsOnlyBy
    (allowed : Fault → Prop)
    (how : Comparison (Except Fault)) :
    Prop where
  unlike :
    ∀ first second, ShiftReduce.FailsOnlyBy allowed (how.unlike first second)
  keys :
    ∀ first second verdict,
      ShiftReduce.FailsOnlyBy allowed verdict →
        ShiftReduce.FailsOnlyBy allowed (how.keys first second verdict)

section Agreement

variable
  {allowed : Fault → Prop}
  {how : Comparison (Except Fault)}

mutual

/-- Comparing values fails only by what the comparison leaves open. -/
theorem Value.agrees_fails
    (fails : how.FailsOnlyBy allowed) :
    ∀ first second : Value, FailsOnlyBy allowed (first.agrees how second)
  | .none, second => by
      cases second with
      | none => exact .ok _
      | _ => exact fails.unlike _ _
  | .bool _, second => by
      cases second with
      | bool | int => exact .ok _
      | _ => exact fails.unlike _ _
  | .int _, second => by
      cases second with
      | bool | int => exact .ok _
      | _ => exact fails.unlike _ _
  | .text _, second => by
      cases second with
      | text => exact .ok _
      | _ => exact fails.unlike _ _
  | .list items, second => by
      cases second with
      | list others =>
          rw [Value.agrees]
          split
          · exact Value.agreesAll_fails fails items others
          · exact .ok _
      | _ => exact fails.unlike _ _
  | .tuple items, second => by
      cases second with
      | tuple others => exact Value.agreesAll_fails fails items others
      | _ => exact fails.unlike _ _
  | .dict entries, second => by
      cases second with
      | dict others =>
          rw [Value.agrees]
          split
          · exact Value.agreesEntries_fails fails entries others
          · exact .ok _
      | _ => exact fails.unlike _ _
  | .shared _ _, second => fails.unlike _ _
  | .token carried, second => by
      cases second with
      | token other => exact Token.agrees_fails fails carried other
      | _ => exact fails.unlike _ _
  | .nonterminal _, second => by
      cases second with
      | nonterminal => exact .ok _
      | _ => exact fails.unlike _ _
  | .symbol carried, second => by
      cases second with
      | symbol other => exact Symbol.agrees_fails fails carried other
      | _ => exact fails.unlike _ _
  | .production carried, second => by
      cases second with
      | production other => exact Production.agrees_fails fails carried other
      | _ => exact fails.unlike _ _
  | .action carried, second => by
      cases second with
      | action other => exact Action.agrees_fails fails carried other
      | _ => exact fails.unlike _ _
  | .table _, second => by
      cases second with
      | table => exact .ok _
      | _ => exact fails.unlike _ _

theorem Value.agreesAll_fails
    (fails : how.FailsOnlyBy allowed) :
    ∀ items others : List Value,
      FailsOnlyBy allowed (Value.agreesAll how items others)
  | [], others => by
      cases others <;> exact .ok _
  | item :: rest, [] => .ok _
  | item :: rest, other :: remaining =>
      .bothHold (Value.agrees_fails fails item other)
        (Value.agreesAll_fails fails rest remaining)

theorem Value.agreesEntries_fails
    (fails : how.FailsOnlyBy allowed) :
    ∀ entries others : List (Value × Value),
      FailsOnlyBy allowed (Value.agreesEntries how entries others)
  | [], _ => .ok _
  | (key, value) :: rest, others => by
      refine .bind ?_ fun found => ?_
      · exact
          .findM? fun other =>
            fails.keys _ _ _ (Value.agrees_fails fails key other.1)
      · cases found with
        | none => exact .ok _
        | some other =>
            exact
              .bothHold (Value.agrees_fails fails value other.2)
                (Value.agreesEntries_fails fails rest others)

theorem Token.agrees_fails
    (fails : how.FailsOnlyBy allowed) :
    ∀ first second : Token, FailsOnlyBy allowed (first.agrees how second)
  | ⟨_, _, value⟩, other => by
      rw [Token.agrees]
      split
      · exact Value.agrees_fails fails value other.value
      · exact .ok _

theorem Symbol.agrees_fails
    (fails : how.FailsOnlyBy allowed) :
    ∀ first second : Symbol, FailsOnlyBy allowed (first.agrees how second)
  | .token wrapped, second => by
      cases second with
      | token other => exact Token.agrees_fails fails wrapped other
      | _ => exact .ok _
  | .nonterminal _, second => by
      cases second <;> exact .ok _
  | .bare _, second => by
      cases second <;> exact .ok _

theorem Production.agrees_fails
    (fails : how.FailsOnlyBy allowed) :
    ∀ first second : Production, FailsOnlyBy allowed (first.agrees how second)
  | ⟨_, head, body, _⟩, other => by
      rw [Production.agrees]
      split
      · exact
          .bothHold (Value.agrees_fails fails head other.head)
            (Value.agreesAll_fails fails body other.body)
      · exact .ok _

theorem Action.agrees_fails
    (fails : how.FailsOnlyBy allowed) :
    ∀ first second : Action, FailsOnlyBy allowed (first.agrees how second)
  | .shift _ next, second => by
      cases second with
      | shift _ other => exact Value.agrees_fails fails next other
      | _ => exact .ok _
  | .reduce _ production, second => by
      cases second with
      | reduce _ other => exact Value.agrees_fails fails production other
      | _ => exact .ok _
  | .accept _, second => by
      cases second <;> exact .ok _
  | .error _, second => by
      cases second <;> exact .ok _
  | .unknown _, second => by
      cases second <;> exact .ok _

end

end Agreement

/-- What filing fails by: something unhashable. -/
inductive Fault.OfFiling :
    Fault → Prop where
  | unhashable
      (typeName : String) :
      OfFiling (.unhashable typeName)

/-- What looking things up fails by: an endless comparison, or something unhashable. -/
inductive Fault.OfLookUp :
    Fault → Prop where
  | endless :
      OfLookUp .endlessComparison
  | filing
      {cause : Fault}
      (unfiled : cause.OfFiling) :
      OfLookUp cause

/-- An attempt that never fails by refusing a token. -/
def NeverRefuses
    {α : Type}
    (attempt : Except Fault α) :
    Prop :=
  FailsOnlyBy (fun cause => cause.category ≠ .parse) attempt

theorem FailsOnlyBy.neverRefuses
    {α : Type}
    {attempt : Except Fault α}
    (fails : FailsOnlyBy Fault.OfLookUp attempt) :
    NeverRefuses attempt := by
  intro cause failed
  cases fails cause failed with
  | endless => nofun
  | filing unfiled =>
      cases unfiled
      nofun

mutual

/-- What has no hash key is unhashable. -/
theorem Value.hashKey_fails :
    ∀ value : Value, FailsOnlyBy Fault.OfFiling value.hashKey
  | .none => .ok _
  | .bool true => .ok _
  | .bool false => .ok _
  | .int _ => .ok _
  | .text _ => .ok _
  | .list _ => .error (.unhashable _)
  | .tuple items => .bind (Value.hashKeys_fails items) fun _ => .ok _
  | .dict _ => .error (.unhashable _)
  | .shared _ _ => .error (.unhashable _)
  | .token _ => .ok _
  | .nonterminal _ => .ok _
  | .symbol (.token _) => .ok _
  | .symbol (.nonterminal _) => .ok _
  | .symbol (.bare _) => .ok _
  | .production carried => Production.hashKey_fails carried
  | .action carried => Action.hashKey_fails carried
  | .table _ => .ok _

theorem Value.hashKeys_fails :
    ∀ values : List Value, FailsOnlyBy Fault.OfFiling (Value.hashKeys values)
  | [] => .ok _
  | value :: rest =>
      .bind (Value.hashKey_fails value) fun _ =>
        .bind (Value.hashKeys_fails rest) fun _ => .ok _

theorem Production.hashKey_fails :
    ∀ production : Production, FailsOnlyBy Fault.OfFiling production.hashKey
  | ⟨_, head, body, _⟩ =>
      .bind (Value.hashKey_fails head) fun _ =>
        .bind (Value.hashKeys_fails body) fun _ => .ok _

theorem Action.hashKey_fails :
    ∀ action : Action, FailsOnlyBy Fault.OfFiling action.hashKey
  | .shift _ next => .bind (Value.hashKey_fails next) fun _ => .ok _
  | .reduce _ production => .bind (Value.hashKey_fails production) fun _ => .ok _
  | .accept _ => .ok _
  | .error _ => .ok _
  | .unknown _ => .ok _

end

namespace Store

variable {store : Store}

/-- A verdict on keys fails only by what the one that it is given fails by. -/
theorem judgeKeys_fails
    {allowed : Fault → Prop}
    {verdict : Except Fault Bool}
    (first second : Value)
    (fails : FailsOnlyBy allowed verdict) :
    FailsOnlyBy allowed (store.judgeKeys first second verdict) := by
  unfold judgeKeys
  split
  · exact .ok _
  · split
    · exact fails
    · exact .ok _

/-- Comparing fails only by not coming to an end. -/
theorem sameWithin_fails
    (containers : Nat)
    (first second : Value) :
    FailsOnlyBy Fault.OfLookUp (store.sameWithin containers first second) := by
  induction containers generalizing first second with
  | zero => exact .error .endless
  | succ containers inductionHypothesis =>
      refine Value.agrees_fails ⟨?_, fun _ _ _ => judgeKeys_fails _ _⟩ first second
      intro one other
      dsimp only
      split
      · exact .ok _
      · split
        · exact inductionHypothesis _ _
        · exact .ok _

theorem sameKey_fails
    (first second : Value) :
    FailsOnlyBy Fault.OfLookUp (store.sameKey first second) :=
  judgeKeys_fails first second (sameWithin_fails deepest first second)

end Store

theorem Cell.find?_fails
    (store : Store)
    (cells : List Cell)
    (state column : Value) :
    FailsOnlyBy Fault.OfLookUp (find? store cells state column) :=
  .bind ((Value.hashKey_fails _).mono fun _ => .filing) fun _ =>
    .bind (.findM? fun _ => Store.sameKey_fails _ _) fun _ => .ok _

namespace Table

variable
  (store : Store)
  (table : Table)
  (state column : Value)

theorem action_fails :
    FailsOnlyBy Fault.OfLookUp (table.action store state column) :=
  .bind (Cell.find?_fails store table.actions state column) fun _ => .ok _

theorem goto_fails :
    FailsOnlyBy Fault.OfLookUp (table.goto store state column) :=
  .bind (Cell.find?_fails store table.gotos state column) fun _ => .ok _

end Table

end ShiftReduce
