import ShiftReduce.Proofs.Table.Failure
import ShiftReduce.Proofs.Value.Alike
import ShiftReduce.Proofs.Value.Kinds
import ShiftReduce.Proofs.Value.Unfolding

namespace ShiftReduce

/-!
# How equal values are filed

Each sort of values is compared in its own way and filed in its own way, and the two look
at different parts: a token is filed by its kind alone, rules are compared without their
index and filed without it, and a rule of a derived class equals one of the class itself.
Still, if one of two equal values can be filed, so can the other.

Shifts and reductions are compared without their kind but filed with it, and a derived
class may set a kind of its own.  So two equal values have the same hash key exactly if their
kinds do not clash, that is, unless somewhere in the same position they have shifts or
reductions of different kinds (`Value.equal_values_filed_by_kinds`).

That holds of every way of filing that goes by the keys of the parts (`IsFiling`): by
the value alone, and by what it comes to in a store.
-/

/-- Two attempts that come to the same, or both fail. -/
structure SucceedAlike
    {α : Type}
    (attempt other : Except Fault α) :
    Prop where
  forth : SucceedsAs attempt other
  back : SucceedsAs other attempt

namespace SucceedAlike

variable {α β : Type}

theorem refl
    (attempt : Except Fault α) :
    SucceedAlike attempt attempt :=
  ⟨.refl attempt, .refl attempt⟩

theorem ofEq
    {attempt other : Except Fault α}
    (same : attempt = other) :
    SucceedAlike attempt other :=
  same ▸ refl attempt

theorem error
    (cause other : Fault) :
    SucceedAlike (.error cause : Except Fault α) (.error other) :=
  ⟨.error _ _, .error _ _⟩

theorem bind
    {attempt other : Except Fault α}
    {next otherNext : α → Except Fault β}
    (first : SucceedAlike attempt other)
    (second : ∀ result, SucceedAlike (next result) (otherNext result)) :
    SucceedAlike (attempt >>= next) (other >>= otherNext) :=
  ⟨first.forth.bind fun result => (second result).forth,
    first.back.bind fun result => (second result).back⟩

end SucceedAlike

/-- The keys of several values one after the other, given a way to file each. -/
def Value.hashKeysBy
    (file : Value → Except Fault HashKey) :
    List Value → Except Fault (List HashAtom)
  | [] => .ok []
  | value :: rest => do
      let key ← file value
      let keys ← Value.hashKeysBy file rest
      return key ++ keys

/-- The key of a value, given a way to file its parts. -/
def Value.hashKeyBy
    (file : Value → Except Fault HashKey) :
    Value → Except Fault HashKey
  | .tuple items => do
      let keys ← Value.hashKeysBy file items
      return HashKey.sequence keys
  | .production ⟨_, head, body, _⟩ => do
      let headKey ← file head
      let bodyKeys ← Value.hashKeysBy file body
      return HashKey.sequence (headKey ++ HashKey.sequence bodyKeys)
  | .action (.shift lineage nextState) => do
      let key ← file nextState
      return HashKey.sequence (.text (Action.shift lineage nextState).kind :: key)
  | .action (.reduce lineage rule) => do
      let key ← file rule
      return HashKey.sequence (.text (Action.reduce lineage rule).kind :: key)
  | other => other.hashKey

/-- A way of filing that goes by the keys of the parts, whatever it does with mentions. -/
def IsFiling
    (file : Value → Except Fault HashKey) :
    Prop :=
  ∀ value : Value,
    value.isMention = false → SucceedAlike (file value) (value.hashKeyBy file)

namespace HashKey

variable {key other : HashKey}

theorem sequence_inj :
    sequence key = sequence other ↔ key = other := by
  simp [sequence]

/-- Keys of the same length can be told from what comes after them. -/
theorem append_inj_iff
    {keys others : HashKey}
    (length : key.length = other.length) :
    key ++ keys = other ++ others ↔ key = other ∧ keys = others := by
  constructor
  · intro same
    exact List.append_inj same length
  · rintro ⟨rfl, rfl⟩
    rfl

end HashKey

/--
Two attempts to file either both fail, or come to keys of the same length, which are the
same exactly if nothing clashes.
-/
inductive FiledUpTo
    (clash : Prop) :
    Except Fault HashKey → Except Fault HashKey → Prop where
  | fails
      (cause other : Fault) :
      FiledUpTo clash (.error cause) (.error other)
  | keys
      {key other : HashKey}
      (length : key.length = other.length)
      (same : key = other ↔ ¬ clash) :
      FiledUpTo clash (.ok key) (.ok other)

namespace FiledUpTo

variable
  {clash otherClash : Prop}
  {attempt other : Except Fault HashKey}

theorem refl
    (apart : ¬ clash)
    (attempt : Except Fault HashKey) :
    FiledUpTo clash attempt attempt := by
  cases attempt with
  | error cause => exact .fails cause cause
  | ok key => exact .keys rfl ⟨fun _ => apart, fun _ => rfl⟩

theorem ofEq
    (apart : ¬ clash)
    (same : attempt = other) :
    FiledUpTo clash attempt other :=
  same ▸ refl apart attempt

theorem congr
    (filed : FiledUpTo clash attempt other)
    (same : otherClash ↔ clash) :
    FiledUpTo otherClash attempt other :=
  propext same ▸ filed

/-- Attempts that come to the same as others can take their place. -/
theorem alike
    {before otherBefore : Except Fault HashKey}
    (filed : FiledUpTo clash attempt other)
    (same : SucceedAlike before attempt)
    (otherSame : SucceedAlike otherBefore other) :
    FiledUpTo clash before otherBefore := by
  have failing :
      ∀ {attempt before : Except Fault HashKey} {cause : Fault},
        attempt = .error cause →
          SucceedAlike before attempt → ∃ other, before = .error other := by
    intro attempt before cause failed same
    cases before with
    | error other => exact ⟨other, rfl⟩
    | ok key =>
        have succeeded := same.forth key rfl
        rw [failed] at succeeded
        cases succeeded
  cases filed with
  | fails =>
      obtain ⟨cause, rfl⟩ := failing rfl same
      obtain ⟨otherCause, rfl⟩ := failing rfl otherSame
      exact .fails _ _
  | keys length exactly =>
      rw [same.back _ rfl, otherSame.back _ rfl]
      exact .keys length exactly

/-- Keys that are made of two each are the same exactly if both of them are. -/
theorem join
    {rest otherRest : Except Fault HashKey}
    {join otherJoin : HashKey → HashKey → HashKey}
    (filed : FiledUpTo clash attempt other)
    (later : FiledUpTo otherClash rest otherRest)
    (length :
      ∀ key keys other others : HashKey,
        key.length = other.length →
          keys.length = others.length →
            (join key keys).length = (otherJoin other others).length)
    (same :
      ∀ key keys other others : HashKey,
        key.length = other.length →
          (join key keys = otherJoin other others ↔ key = other ∧ keys = others)) :
    FiledUpTo (clash ∨ otherClash)
      (do
        let key ← attempt
        let keys ← rest
        return join key keys)
      (do
        let key ← other
        let keys ← otherRest
        return otherJoin key keys) := by
  cases filed with
  | fails => exact .fails _ _
  | keys keyLength sameKey =>
      cases later with
      | fails => exact .fails _ _
      | keys restLength sameRest =>
          refine .keys (length _ _ _ _ keyLength restLength) ?_
          rw [same _ _ _ _ keyLength, sameKey, sameRest, not_or]

/-- Keys that stand behind different atoms differ. -/
theorem behind
    {atom otherAtom : HashAtom}
    (filed : FiledUpTo clash attempt other) :
    FiledUpTo (atom ≠ otherAtom ∨ clash)
      (do
        let key ← attempt
        return HashKey.sequence (atom :: key))
      (do
        let key ← other
        return HashKey.sequence (otherAtom :: key)) := by
  cases filed with
  | fails => exact .fails _ _
  | keys length same =>
      refine .keys (by simp [HashKey.sequence, length]) ?_
      simp [HashKey.sequence, same]

/-- Keys that stand between marks are the same if they are without. -/
theorem sequence
    (filed : FiledUpTo clash attempt other) :
    FiledUpTo clash
      (do
        let key ← attempt
        return HashKey.sequence key)
      (do
        let key ← other
        return HashKey.sequence key) := by
  cases filed with
  | fails => exact .fails _ _
  | keys length same =>
      refine .keys (by simp [HashKey.sequence, length]) ?_
      simp [HashKey.sequence, same]

end FiledUpTo

namespace IsFiling

variable
  {file : Value → Except Fault HashKey}
  {others : Value → Value → Prop}
  {through : Value → Value → Value → Value → Prop}
  {clash : Prop}

/-- Values are filed up to a clash if they are when the keys of their parts are known. -/
theorem ofParts
    (filing : IsFiling file)
    {first second : Value}
    (firstHeld : first.isMention = false)
    (secondHeld : second.isMention = false)
    (parts : FiledUpTo clash (first.hashKeyBy file) (second.hashKeyBy file)) :
    FiledUpTo clash (file first) (file second) :=
  parts.alike (filing first firstHeld) (filing second secondHeld)

/-- What can be used as a number is filed as that number. -/
theorem ofNumber
    (filing : IsFiling file)
    {value : Value}
    {number : Int}
    (stands : value.index? = some number) :
    SucceedAlike (file value) (.ok [.number number]) := by
  cases value with
  | bool truth =>
      cases stands
      cases truth with
      | true => exact filing (.bool true) rfl
      | false => exact filing (.bool false) rfl
  | int =>
      cases stands
      exact filing (.int number) rfl
  | _ => cases stands

theorem numbers_apart
    (atMentions : LooksAtMentions through)
    {first second : Value}
    {number other : Int}
    (stands : first.index? = some number)
    (otherStands : second.index? = some other) :
    ¬ first.KindsClash through second := by
  have held : ∀ {value : Value} {number : Int},
      value.index? = some number →
        value.bearsKinds = false ∧ value.isMention = false := by
    intro value number stands
    cases value <;> first | exact ⟨rfl, rfl⟩ | cases stands
  exact
    Value.not_kindsClash atMentions (held stands).1 (held stands).2
      (held otherStands).2

mutual

/-- Values that are made alike are filed up to clashes of kinds, one case for each rule. -/
theorem upToKinds
    (filing : IsFiling file)
    (atMentions : LooksAtMentions through)
    (base :
      ∀ first second,
        others first second →
          FiledUpTo (first.KindsClash through second) (file first) (file second)) :
    ∀ {first second : Value},
      first.Alike others second →
        FiledUpTo (first.KindsClash through second) (file first) (file second)
  | _, _, .other related => base _ _ related
  | _, _, .none => .refl (Value.not_kindsClash atMentions rfl rfl rfl) _
  | _, _, .number firstStands secondStands =>
      (FiledUpTo.refl (numbers_apart atMentions firstStands secondStands) _).alike
        (filing.ofNumber firstStands) (filing.ofNumber secondStands)
  | _, _, .text _ => .refl (Value.not_kindsClash atMentions rfl rfl rfl) _
  | _, _, .list _ => filing.ofParts rfl rfl (.fails _ _)
  | _, _, .tuple members =>
      filing.ofParts rfl rfl
        ((filing.upToKindsAll atMentions base members).sequence.congr
          (Value.kindsClash_tuple atMentions))
  | _, _, .token _ =>
      filing.ofParts rfl rfl
        (.refl (Value.not_kindsClash atMentions rfl rfl rfl) _)
  | _, _, .nonterminal _ => .refl (Value.not_kindsClash atMentions rfl rfl rfl) _
  | _, _, .tokenSymbol _ =>
      filing.ofParts rfl rfl
        (.refl (Value.not_kindsClash atMentions rfl rfl rfl) _)
  | _, _, .nonterminalSymbol _ =>
      .refl (Value.not_kindsClash atMentions rfl rfl rfl) _
  | _, _, .bareSymbol _ => .refl (Value.not_kindsClash atMentions rfl rfl rfl) _
  | _, _, .production _ heads bodies =>
      filing.ofParts rfl rfl
        (((filing.upToKinds atMentions base heads).join
            (filing.upToKindsAll atMentions base bodies)
            (by simp +contextual [HashKey.sequence])
            (fun _ _ _ _ length => by
              rw [HashKey.sequence_inj, HashKey.append_inj_iff length,
                HashKey.sequence_inj])).congr
          (Value.kindsClash_production atMentions))
  | _, _, .shift states =>
      filing.ofParts rfl rfl
        ((filing.upToKinds atMentions base states).behind.congr
          ((Value.kindsClash_shift atMentions).trans (by simp)))
  | _, _, .reduce rules =>
      filing.ofParts rfl rfl
        ((filing.upToKinds atMentions base rules).behind.congr
          ((Value.kindsClash_reduce atMentions).trans (by simp)))
  | _, _, .accept _ => .refl (Value.not_kindsClash atMentions rfl rfl rfl) _
  | _, _, .error _ => .refl (Value.not_kindsClash atMentions rfl rfl rfl) _
  | _, _, .unknown _ => .refl (Value.not_kindsClash atMentions rfl rfl rfl) _
  | _, _, .table identities =>
      filing.ofParts rfl rfl
        (.ofEq (Value.not_kindsClash atMentions rfl rfl rfl)
          (congrArg (fun identity => Except.ok [HashAtom.object identity])
            identities))

theorem upToKindsAll
    (filing : IsFiling file)
    (atMentions : LooksAtMentions through)
    (base :
      ∀ first second,
        others first second →
          FiledUpTo (first.KindsClash through second) (file first) (file second)) :
    ∀ {items otherItems : List Value},
      Value.AlikeAll others items otherItems →
        FiledUpTo (Value.KindsClashSomewhere through items otherItems)
          (Value.hashKeysBy file items) (Value.hashKeysBy file otherItems)
  | _, _, .nil => .refl Value.kindsClashSomewhere_nil _
  | _, _, .cons here later =>
      ((filing.upToKinds atMentions base here).join
          (filing.upToKindsAll atMentions base later)
          (by simp +contextual)
          (fun _ _ _ _ length => HashKey.append_inj_iff length)).congr
        Value.kindsClashSomewhere_cons

end

end IsFiling

theorem Value.hashKeysBy_hashKey
    (values : List Value) :
    Value.hashKeysBy Value.hashKey values = Value.hashKeys values := by
  induction values with
  | nil => rfl
  | cons value rest inductionHypothesis =>
      rw [Value.hashKeysBy, Value.hashKeys, inductionHypothesis]

/-- Going by the value alone is a way of filing. -/
theorem Value.hashKey_isFiling :
    IsFiling Value.hashKey := by
  intro value _
  apply SucceedAlike.ofEq
  cases value with
  | tuple items =>
      rw [Value.hashKey, Value.hashKeyBy, Value.hashKeysBy_hashKey]
  | production carried =>
      rcases carried with ⟨identity, head, body, index⟩
      change Production.hashKey _ = _
      rw [Production.hashKey, Value.hashKeyBy, Value.hashKeysBy_hashKey]
  | action carried => cases carried <;> rfl
  | _ => rfl

namespace Store

variable (store : Store)

theorem hashKeys_resolve
    (values : List Value) :
    Value.hashKeys (values.map store.resolve) =
      Value.hashKeysBy store.hashKey values := by
  induction values with
  | nil => rfl
  | cons value rest inductionHypothesis =>
      rw [List.map_cons, Value.hashKeys, inductionHypothesis]
      rfl

/-- What a store fills mentions with: the contents, looked through on one level less. -/
structure Resolves
    (levels : Nat)
    (fill : Filling) :
    Prop where
  enough : store.contents.size ≤ levels
  resolve : ∀ value, store.resolve value = value.expand fill
  mention :
    ∀ sort place,
      fill.mention sort place =
        store.resolveWithin levels [place] (store.contentAt place)
  gap :
    ∀ sort place,
      fill.gap sort place =
        if sort = .tuple then
          store.resolveWithin levels [] (store.contentAt place)
        else
          fill.mention sort place

theorem exists_resolves :
    ∃ levels fill, store.Resolves levels fill := by
  have enough : store.contents.size + 1 ≤ store.levels := Nat.le_mul_self _
  obtain ⟨levels, more⟩ : ∃ levels, store.levels = levels + 1 :=
    ⟨store.levels - 1, by omega⟩
  have resolve : store.resolve = store.resolveWithin (levels + 1) [] := by
    unfold Store.resolve
    rw [more]
  exact
    ⟨levels, _, by omega, fun value => congrFun resolve value, fun _ _ => rfl,
      fun _ _ => rfl⟩

variable {store}

/-- A mention is filed as what lies at its place. -/
theorem hashKey_shared
    (sort : ContainerSort)
    (place : Nat) :
    SucceedAlike
      (store.hashKey (.shared sort place))
      (store.hashKey (store.contentAt place)) := by
  obtain ⟨levels, fill, resolves⟩ := store.exists_resolves
  have mentioned :
      store.hashKey (.shared sort place) =
        (store.resolveWithin levels [place] (store.contentAt place)).hashKey := by
    rw [hashKey, resolves.resolve]
    exact congrArg Value.hashKey (resolves.mention sort place)
  rw [mentioned]
  have wholly : store.contents.size ≤ store.levels :=
    Nat.le_of_succ_le (Nat.le_mul_self _)
  exact
    ⟨hashKey_contentAt wholly (List.nil_subset _),
      hashKey_contentAt resolves.enough (List.Subset.refl _)⟩

/-- Looking at a mention makes no difference to its key. -/
theorem hashKey_lookAt
    (value : Value) :
    SucceedAlike (store.hashKey value) (store.hashKey (store.lookAt value)) := by
  cases value with
  | shared sort place => exact hashKey_shared sort place
  | _ => exact .refl _

/-- What fills a gap is filed as what is mentioned there. -/
theorem Resolves.hashKey_gap
    {levels : Nat}
    {fill : Filling}
    (resolves : store.Resolves levels fill)
    (sort : ContainerSort)
    (place : Nat) :
    SucceedAlike
      (fill.gap sort place).hashKey (store.hashKey (.shared sort place)) := by
  have mentioned :
      store.hashKey (.shared sort place) = (fill.mention sort place).hashKey := by
    rw [hashKey, resolves.resolve]
    rfl
  rw [mentioned, resolves.gap]
  split
  · rw [resolves.mention]
    exact
      ⟨hashKey_contentAt resolves.enough (List.Subset.refl _),
        hashKey_contentAt resolves.enough (List.nil_subset _)⟩
  · exact .refl _

/-- Going by what a value comes to in a store is a way of filing. -/
theorem hashKey_isFiling :
    IsFiling store.hashKey := by
  obtain ⟨levels, fill, resolves⟩ := store.exists_resolves
  have resolved :
      ∀ values : List Value,
        Value.hashKeys (Value.expandAll fill values) =
          Value.hashKeysBy store.hashKey values := by
    intro values
    rw [Value.expandAll_eq_map, ← store.hashKeys_resolve, funext resolves.resolve]
  have filed : ∀ value : Value, store.hashKey value = (value.expand fill).hashKey :=
    fun value => congrArg Value.hashKey (resolves.resolve value)
  intro value held
  rw [filed]
  cases value with
  | shared sort place => cases held
  | list | dict => exact .error _ _
  | tuple items => exact .bind (.ofEq (resolved items)) fun _ => .refl _
  | token carried => cases carried with | mk => exact .refl _
  | symbol carried =>
      cases carried with
      | token wrapped => cases wrapped with | mk => exact .refl _
      | _ => exact .refl _
  | production carried =>
      rcases carried with ⟨identity, head, body, index⟩
      have heads : SucceedAlike (head.expand fill).hashKey (store.hashKey head) :=
        .ofEq (filed head).symm
      have bodies := SucceedAlike.ofEq (resolved body)
      cases head with
      | shared sort place =>
          cases body with
          | nil =>
              exact .bind (resolves.hashKey_gap sort place) fun _ => .refl _
          | cons => exact .bind heads fun _ => .bind bodies fun _ => .refl _
      | _ => exact .bind heads fun _ => .bind bodies fun _ => .refl _
  | action carried =>
      cases carried with
      | shift lineage next =>
          exact .bind (.ofEq (filed next).symm) fun _ => .refl _
      | reduce lineage rule =>
          have rules : SucceedAlike (rule.expand fill).hashKey (store.hashKey rule) :=
            .ofEq (filed rule).symm
          cases rule with
          | shared sort place =>
              exact .bind (resolves.hashKey_gap sort place) fun _ => .refl _
          | _ => exact .bind rules fun _ => .refl _
      | _ => exact .refl _
  | _ => exact .refl _

/-- Values that are the same as things stand are filed up to their kinds as things stand. -/
theorem filedUpTo_of_sameWithin
    {containers : Nat}
    {first second : Value}
    (same : store.sameWithin containers first second = .ok true) :
    FiledUpTo (store.ClashInKind first second)
      (store.hashKey first) (store.hashKey second) := by
  induction containers generalizing first second with
  | zero => cases same
  | succ containers inductionHypothesis =>
      refine
        hashKey_isFiling.upToKinds looks_atMentions ?_ (Affirms.success.alike same)
      rintro one other (⟨isDict, otherIsDict⟩ | unlike)
      · cases one <;> cases isDict
        cases other <;> cases otherIsDict
        exact hashKey_isFiling.ofParts rfl rfl (.fails _ _)
      · dsimp only at unlike
        split at unlike
        · next samePlace =>
            have apart := store.not_clashInKind_of_samePlace samePlace
            obtain ⟨_, rfl⟩ := samePlace_iff.mp samePlace
            exact .refl apart _
        · next apart =>
            split at unlike
            · next mention =>
                have seen := inductionHypothesis unlike
                exact
                  (seen.alike (hashKey_lookAt one) (hashKey_lookAt other)).congr
                    (clashInKind_lookAt (Bool.eq_false_iff.mpr apart)
                      (Bool.or_eq_true_iff.mp mention))
            · cases unlike

end Store

/--
Two attempts to file come to keys, which are the same exactly if nothing clashes, or both to
the complaint that a part cannot be filed.
-/
def FiledUnless
    (clash : Prop)
    (first second : Except Fault HashKey) :
    Prop :=
  (∃ key other,
      first = .ok key ∧ second = .ok other ∧ (key = other ↔ ¬ clash)) ∨
    ∃ typeName otherName,
      first = .error (.unhashable typeName) ∧
        second = .error (.unhashable otherName)

theorem FiledUpTo.unless
    {clash : Prop}
    {first second : Value}
    (filed : FiledUpTo clash first.hashKey second.hashKey) :
    FiledUnless clash first.hashKey second.hashKey := by
  generalize firstFiled : first.hashKey = attempt at filed
  generalize secondFiled : second.hashKey = other at filed
  cases filed with
  | fails cause otherCause =>
      obtain ⟨typeName⟩ := first.hashKey_fails cause firstFiled
      obtain ⟨otherName⟩ := second.hashKey_fails otherCause secondFiled
      exact .inr ⟨typeName, otherName, rfl, rfl⟩
  | keys length same => exact .inl ⟨_, _, rfl, rfl, same⟩

/-- Values that are equal by themselves are filed up to their kinds. -/
theorem Value.filedUpTo_of_equals
    {first second : Value}
    (equal : first.equals second = true) :
    FiledUpTo (first.ClashInKind second) first.hashKey second.hashKey := by
  have atMentions : LooksAtMentions fun _ _ _ _ => False := nofun
  refine hashKey_isFiling.upToKinds atMentions ?_ (Affirms.verdict.alike equal)
  rintro one other (⟨isDict, otherIsDict⟩ | unlike)
  · cases one <;> cases isDict
    cases other <;> cases otherIsDict
    exact .fails _ _
  · obtain ⟨mention, rfl⟩ := Store.samePlace_iff.mp unlike
    cases one with
    | shared => exact .fails _ _
    | _ => cases mention

/-- A tuple of a number, a token, a rule, an action and a symbol of the most general classes. -/
def Value.general : Value :=
  .tuple
    [.int 1, .token (.plain "$" .none),
      .production ⟨Option.none, .nonterminal ⟨"S"⟩, [.text "a", .int 0], .none⟩,
      .action (.shift .direct (.int 0)), .symbol (.token (.ofKind "<e>"))]

/-- A class of shifts that are known by a word of their own. -/
def DerivedClass.deferral : DerivedClass :=
  ⟨0, "DeferredShift", some "defer"⟩

/-- A tuple of things of other classes that equal those of the general ones. -/
def Value.special
    (shiftClass : DerivedClass) :
    Value :=
  .tuple
    [.bool true, .token .endOfInput,
      .production
        ⟨some 3, .nonterminal ⟨"S"⟩, [.text "a", .bool false], .int 7⟩,
      .action (.shift (.derived shiftClass) (.bool false)), .symbol (.token .epsilon)]

/-- A store with a special tuple, and with a list that holds it. -/
def Store.ofSpecial
    (shiftClass : DerivedClass) :
    Store :=
  ⟨#[.special shiftClass, .list [.shared .tuple 0]]⟩

end ShiftReduce
