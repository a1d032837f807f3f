import Mathlib.Data.List.Perm.Subperm
import ShiftReduce.Proofs.Value.Constant

namespace ShiftReduce

/-!
# Constants that lie in a store

A tuple that is to stay one tuple lies in a store, and values mention it by its place.  It
is a constant all the same, if it is made of atoms and of such tuples in turn.  Nothing can
be put into a tuple, so constants read the same with any store that keeps the tuples of an
earlier one (`Store.Keeps`).

Comparing goes through a limited number of containers inside each other, so what counts as a
constant (`Store.IsConstant`) mentions no container deeper than that.  Comparing constants
then leads to a verdict on what they read as (`Store.same_of_constants`), and equal ones are
filed under one key (`Store.same_iff_key`).
-/

@[simp]
theorem truthNumber_inj
    {first second : Bool} :
    truthNumber first = truthNumber second ↔ first = second := by
  cases first <;> cases second <;> simp [truthNumber]

namespace Value

mutual

/-- What expands to a constant depends on nothing but the constants that fill its mentions. -/
theorem expand_eq_of_constant
    {fill other : Filling}
    (same :
      ∀ sort place,
        (fill.mention sort place).isConstant = true →
          other.mention sort place = fill.mention sort place) :
    ∀ {value : Value},
      (value.expand fill).isConstant = true →
        value.expand other = value.expand fill
  | .none, _ => rfl
  | .bool _, _ => rfl
  | .int _, _ => rfl
  | .text _, _ => rfl
  | .nonterminal _, _ => rfl
  | .shared sort place, constant => same sort place constant
  | .tuple items, constant => by
      have members : areConstants (expandAll fill items) = true := constant
      simp only [expand, expandAll_eq_of_constants same members]

theorem expandAll_eq_of_constants
    {fill other : Filling}
    (same :
      ∀ sort place,
        (fill.mention sort place).isConstant = true →
          other.mention sort place = fill.mention sort place) :
    ∀ {values : List Value},
      areConstants (expandAll fill values) = true →
        expandAll other values = expandAll fill values
  | [], _ => rfl
  | value :: rest, constants => by
      have parts := Bool.and_eq_true_iff.mp constants
      simp only [expandAll, expand_eq_of_constant same parts.1,
        expandAll_eq_of_constants same parts.2]

end

mutual

/-- A constant with integers for truth values, so that equal constants become the same. -/
def canonical :
    Value → Value
  | .bool truth => .int (truthNumber truth)
  | .tuple items => .tuple (canonicalAll items)
  | other => other
termination_by structural value => value

/-- Several constants, each with integers for truth values. -/
def canonicalAll :
    List Value → List Value
  | [] => []
  | value :: rest => value.canonical :: canonicalAll rest
termination_by structural values => values

end

theorem agreesAll_iff_canonicalAll
    {items others : List Value}
    (each :
      ∀ item ∈ items, ∀ other ∈ others,
        (item.equals other = true ↔ item.canonical = other.canonical)) :
    Id.run (agreesAll .byPlace items others) = true ↔
      canonicalAll items = canonicalAll others := by
  induction items generalizing others with
  | nil =>
      cases others with
      | nil => simp [agreesAll, canonicalAll, Id.run, pure]
      | cons other remaining => simp [agreesAll, canonicalAll, Id.run, pure]
  | cons item rest inductionHypothesis =>
      cases others with
      | nil => simp [agreesAll, canonicalAll, Id.run, pure]
      | cons other remaining =>
          have first := each item List.mem_cons_self other List.mem_cons_self
          have others :=
            inductionHypothesis fun value member partner partnerMember =>
              each value (List.mem_cons_of_mem item member) partner
                (List.mem_cons_of_mem other partnerMember)
          rw [agreesAll_byPlace_cons, Bool.and_eq_true, first, others]
          simp [canonicalAll]

/-- Constants are equal just if they are the same but for truth values. -/
theorem equals_iff_canonical
    {first second : Value}
    (firstConstant : first.isConstant = true)
    (secondConstant : second.isConstant = true) :
    first.equals second = true ↔ first.canonical = second.canonical := by
  induction first, firstConstant using constant_induction generalizing second with
  | tuple items constant inductionHypothesis =>
      cases second with
      | tuple others =>
          rw [canonical, canonical, Value.tuple.injEq]
          exact
            agreesAll_iff_canonicalAll fun item member other otherMember =>
              inductionHypothesis item member
                (areConstants_iff.mp secondConstant other otherMember)
      | _ => simp [equals, agrees, canonical, samePlace, Comparison.byPlace,
          Id.run, pure]
  | _ =>
      cases second <;>
        simp [equals, agrees, canonical, samePlace, Comparison.byPlace, Id.run,
          pure]

end Value

namespace Store

section Levels

variable
  {store : Store}
  {levels more : Nat}
  {within fewer : List Nat}
  {value : Value}

/-- There is nothing to look through in a constant. -/
theorem resolveWithin_constant
    (store : Store)
    (levels : Nat)
    (within : List Nat)
    (constant : value.isConstant = true) :
    store.resolveWithin levels within value = value := by
  cases levels with
  | zero => rfl
  | succ levels => exact Value.expand_constant _ constant

/-- A tuple is looked through member by member. -/
theorem resolveWithin_tuple
    (store : Store)
    (levels : Nat)
    (within : List Nat)
    (items : List Value) :
    store.resolveWithin levels within (.tuple items) =
      .tuple (items.map (store.resolveWithin levels within)) := by
  cases levels with
  | zero =>
      have unchanged : store.resolveWithin 0 within = id := rfl
      rw [unchanged, List.map_id]
      rfl
  | succ levels =>
      exact congrArg Value.tuple (Value.expandAll_eq_map _ items)

/-- Looking through places in two ways comes to the same if it does at each of them. -/
theorem resolveWithin_congr
    (constant :
      (store.resolveWithin (levels + 1) within value).isConstant = true)
    (each :
      ∀ place,
        place ∉ within →
          (store.resolveWithin levels (place :: within)
              (store.contentAt place)).isConstant = true →
            place ∉ fewer ∧
              store.resolveWithin more (place :: fewer)
                  (store.contentAt place) =
                store.resolveWithin levels (place :: within)
                  (store.contentAt place)) :
    store.resolveWithin (more + 1) fewer value =
      store.resolveWithin (levels + 1) within value := by
  refine Value.expand_eq_of_constant ?_ constant
  intro sort place reads
  by_cases entered : place ∈ within
  · simp [entered, Value.isConstant] at reads
  · simp only [List.contains_eq_mem, entered, decide_false, Bool.false_eq_true,
      if_false] at reads ⊢
    obtain ⟨apart, same⟩ := each place entered reads
    simp only [apart, decide_false, Bool.false_eq_true, if_false, same]

/-- What reads as a constant does so on more levels, and with fewer places entered. -/
theorem resolveWithin_of_more
    (constant : (store.resolveWithin levels within value).isConstant = true)
    (enough : levels ≤ more)
    (subset : fewer ⊆ within) :
    store.resolveWithin more fewer value =
      store.resolveWithin levels within value := by
  induction levels generalizing more within fewer value with
  | zero => exact store.resolveWithin_constant more fewer constant
  | succ levels inductionHypothesis =>
      obtain ⟨left, rfl⟩ := Nat.exists_eq_add_of_le' enough
      refine resolveWithin_congr constant ?_
      intro place apart reads
      refine ⟨fun entered => apart (subset entered), ?_⟩
      exact
        inductionHypothesis reads (Nat.le_add_left levels left)
          (List.cons_subset_cons place subset)

/--
No place is entered inside itself, so that a value has been looked through once there are as
many levels as places to enter, and one more.
-/
theorem resolveWithin_of_enough
    (constant : (store.resolveWithin levels within value).isConstant = true)
    (distinct : within.Nodup)
    (inside : ∀ place ∈ within, place < store.contents.size)
    (enough : store.contents.size < more + within.length) :
    store.resolveWithin more within value =
      store.resolveWithin levels within value := by
  induction levels generalizing more within value with
  | zero => exact store.resolveWithin_constant more within constant
  | succ levels inductionHypothesis =>
      have entered : within.length ≤ store.contents.size := by
        have subset : within ⊆ List.range store.contents.size :=
          fun place member => List.mem_range.mpr (inside place member)
        simpa using (distinct.subperm subset).length_le
      obtain ⟨left, rfl⟩ : ∃ left, more = left + 1 :=
        Nat.exists_eq_succ_of_ne_zero (by omega)
      refine resolveWithin_congr constant ?_
      intro place apart reads
      refine ⟨apart, ?_⟩
      rcases Nat.lt_or_ge place store.contents.size with held | beyond
      · refine inductionHypothesis reads (List.nodup_cons.mpr ⟨apart, distinct⟩)
          ?_ ?_
        · intro other member
          rcases List.mem_cons.mp member with rfl | earlier
          · exact held
          · exact inside other earlier
        · simp only [List.length_cons]
          omega
      · have nothing : store.contentAt place = .none := by
          simp [contentAt, Array.getElem?_eq_none beyond]
        rw [nothing, store.resolveWithin_constant _ _ rfl,
          store.resolveWithin_constant _ _ rfl]

end Levels

/-- The members of a tuple, whether it lies in the store or not. -/
def tupleMembers?
    (store : Store) :
    Value → Option (List Value)
  | .tuple items => some items
  | .shared _ place =>
      match store.contents[place]? with
      | some (.tuple items) => some items
      | _ => none
  | _ => none

/-- Whether a value is made of atoms and tuples, with mentions on so many levels at most. -/
def isConstantWithin
    (store : Store) :
    (levels : Nat) → Value → Bool
  | 0, value => value.isConstant
  | levels + 1, value =>
      match store.tupleMembers? value with
      | some items => items.all (store.isConstantWithin levels)
      | none => value.isConstant

/-- What a value comes to when tuples are looked through on so many levels. -/
def readWithin
    (store : Store) :
    (levels : Nat) → Value → Value
  | 0, value => value
  | levels + 1, value =>
      match store.tupleMembers? value with
      | some items => .tuple (items.map (store.readWithin levels))
      | none => value

section Levels

variable
  {store : Store}
  {levels : Nat}
  {value : Value}

/-- A tuple in the store is mentioned, or else it is there. -/
theorem tupleMembers?_eq_some_iff
    {items : List Value} :
    store.tupleMembers? value = some items ↔
      value = .tuple items ∨
        ∃ sort place,
          value = .shared sort place ∧
            store.contents[place]? = some (.tuple items) := by
  cases value with
  | shared sort place =>
      cases content : store.contents[place]? with
      | none => simp [tupleMembers?, content]
      | some held =>
          cases held with
          | tuple => simp [tupleMembers?, content]
          | _ => simp [tupleMembers?, content]
  | _ => simp [tupleMembers?]

/-- A tuple is made of atoms and tuples if its members are, on one level less. -/
theorem isConstantWithin_of_members
    {items : List Value}
    (members : store.tupleMembers? value = some items) :
    store.isConstantWithin (levels + 1) value = true ↔
      ∀ item ∈ items, store.isConstantWithin levels item = true := by
  simp [isConstantWithin, members]

theorem isConstantWithin_of_no_tuple
    (noTuple : store.tupleMembers? value = none) :
    store.isConstantWithin levels value = value.isConstant := by
  cases levels with
  | zero => rfl
  | succ levels => simp [isConstantWithin, noTuple]

theorem readWithin_of_members
    {items : List Value}
    (members : store.tupleMembers? value = some items) :
    store.readWithin (levels + 1) value =
      .tuple (items.map (store.readWithin levels)) := by
  simp [readWithin, members]

theorem readWithin_of_no_tuple
    (noTuple : store.tupleMembers? value = none) :
    store.readWithin levels value = value := by
  cases levels with
  | zero => rfl
  | succ levels => simp [readWithin, noTuple]

/-- What is mentioned counts, and not as what. -/
theorem isConstantWithin_shared
    {sort otherSort : ContainerSort}
    {place : Nat}
    (constant : store.isConstantWithin levels (.shared sort place) = true) :
    store.isConstantWithin levels (.shared otherSort place) = true := by
  cases levels with
  | zero => cases constant
  | succ levels => exact constant

/-- A constant that mentions nothing is what it is, on however many levels. -/
theorem isConstantWithin_of_constant
    (store : Store)
    (levels : Nat)
    (constant : value.isConstant = true) :
    store.isConstantWithin levels value = true ∧
      store.readWithin levels value = value := by
  induction levels generalizing value with
  | zero => exact ⟨constant, rfl⟩
  | succ levels inductionHypothesis =>
      cases value with
      | tuple items =>
          have members : store.tupleMembers? (.tuple items) = some items := rfl
          have each := Value.areConstants_iff.mp constant
          rw [isConstantWithin_of_members members, readWithin_of_members members]
          refine ⟨fun item member => (inductionHypothesis (each item member)).1, ?_⟩
          refine congrArg Value.tuple ?_
          conv => rhs; rw [← List.map_id items]
          exact
            List.map_congr_left fun item member =>
              (inductionHypothesis (each item member)).2
      | shared sort place => cases constant
      | _ => exact ⟨constant, rfl⟩

/-- What is made of atoms and tuples reads as a constant. -/
theorem readWithin_isConstant
    (constant : store.isConstantWithin levels value = true) :
    (store.readWithin levels value).isConstant = true := by
  induction levels generalizing value with
  | zero => exact constant
  | succ levels inductionHypothesis =>
      cases members : store.tupleMembers? value with
      | none =>
          rw [isConstantWithin_of_no_tuple members] at constant
          rwa [readWithin_of_no_tuple members]
      | some items =>
          rw [isConstantWithin_of_members members] at constant
          rw [readWithin_of_members members]
          refine Value.areConstants_iff.mpr fun read member => ?_
          obtain ⟨item, itemMember, rfl⟩ := List.mem_map.mp member
          exact inductionHypothesis (constant item itemMember)

/-- What is made of atoms and tuples on some levels is so on one more, and reads the same. -/
theorem isConstantWithin_succ
    (constant : store.isConstantWithin levels value = true) :
    store.isConstantWithin (levels + 1) value = true ∧
      store.readWithin (levels + 1) value = store.readWithin levels value := by
  induction levels generalizing value with
  | zero => exact store.isConstantWithin_of_constant 1 constant
  | succ levels inductionHypothesis =>
      cases members : store.tupleMembers? value with
      | none =>
          rw [isConstantWithin_of_no_tuple members] at constant ⊢
          rw [readWithin_of_no_tuple members, readWithin_of_no_tuple members]
          exact ⟨constant, rfl⟩
      | some items =>
          rw [isConstantWithin_of_members members] at constant ⊢
          rw [readWithin_of_members members, readWithin_of_members members]
          refine
            ⟨fun item member => (inductionHypothesis (constant item member)).1,
              congrArg Value.tuple ?_⟩
          exact
            List.map_congr_left fun item member =>
              (inductionHypothesis (constant item member)).2

/--
Looking through a constant comes to what it reads as.

No place that is being looked through is mentioned again inside: what is mentioned inside is
made of atoms and tuples on fewer levels, and the place itself is not.
-/
theorem resolveWithin_eq_readWithin
    {within : List Nat}
    (constant : store.isConstantWithin levels value = true)
    (outside :
      ∀ place ∈ within, ∀ sort,
        ¬store.isConstantWithin levels (.shared sort place) = true) :
    store.resolveWithin levels within value = store.readWithin levels value := by
  induction levels generalizing value within with
  | zero => rfl
  | succ levels inductionHypothesis =>
      have fewer :
          ∀ place ∈ within, ∀ sort,
            ¬store.isConstantWithin levels (.shared sort place) = true :=
        fun place member sort entered =>
          outside place member sort (isConstantWithin_succ entered).1
      have onOneMore :
          ∀ {item}, store.isConstantWithin levels item = true →
            store.resolveWithin (levels + 1) within item =
              store.readWithin levels item := by
        intro item itemConstant
        have reads := inductionHypothesis itemConstant fewer
        rw [← reads]
        refine resolveWithin_of_more ?_ (Nat.le_succ levels) (List.Subset.refl _)
        rw [reads]
        exact readWithin_isConstant itemConstant
      by_cases earlier : store.isConstantWithin levels value = true
      · rw [onOneMore earlier, (isConstantWithin_succ earlier).2]
      · cases members : store.tupleMembers? value with
        | none =>
            rw [isConstantWithin_of_no_tuple members] at constant earlier
            exact absurd constant earlier
        | some items =>
            have each := (isConstantWithin_of_members members).mp constant
            rw [readWithin_of_members members]
            rcases tupleMembers?_eq_some_iff.mp members with
                rfl | ⟨sort, place, rfl, held⟩
            · rw [resolveWithin_tuple]
              exact
                congrArg Value.tuple
                  (List.map_congr_left fun item member =>
                    onOneMore (each item member))
            · have notInside : place ∉ within :=
                fun member => outside place member sort constant
              have entered :
                  store.resolveWithin (levels + 1) within (.shared sort place) =
                    store.resolveWithin levels (place :: within)
                      (.tuple items) := by
                simp [resolveWithin, Value.expand, notInside, contentAt, held]
              rw [entered, resolveWithin_tuple]
              refine
                congrArg Value.tuple (List.map_congr_left fun item member => ?_)
              refine inductionHypothesis (each item member) ?_
              intro other otherMember otherSort
              rcases List.mem_cons.mp otherMember with rfl | outer
              · exact fun again => earlier (isConstantWithin_shared again)
              · exact fewer other outer otherSort

/-- A constant shows as what it reads as. -/
theorem resolve_eq_readWithin
    (constant : store.isConstantWithin levels value = true) :
    store.resolve value = store.readWithin levels value := by
  have reads : store.resolveWithin levels [] value = store.readWithin levels value :=
    resolveWithin_eq_readWithin constant nofun
  have isConstant : (store.resolveWithin levels [] value).isConstant = true := by
    rw [reads]
    exact readWithin_isConstant constant
  rw [← reads]
  refine resolveWithin_of_enough isConstant .nil nofun ?_
  rw [Store.levels, Nat.succ_mul]
  omega

end Levels

/-- A store holds every tuple that another one holds, at its place. -/
def Keeps
    (before after : Store) :
    Prop :=
  ∀ (place : Nat) (items : List Value),
    before.contents[place]? = some (.tuple items) →
      after.contents[place]? = some (.tuple items)

theorem Keeps.refl
    (store : Store) :
    store.Keeps store :=
  fun _ _ held => held

theorem Keeps.trans
    {first second third : Store}
    (before : first.Keeps second)
    (after : second.Keeps third) :
    first.Keeps third :=
  fun place items held => after place items (before place items held)

theorem Keeps.tupleMembers?
    {before after : Store}
    {value : Value}
    {items : List Value}
    (keeps : before.Keeps after)
    (members : before.tupleMembers? value = some items) :
    after.tupleMembers? value = some items := by
  rcases tupleMembers?_eq_some_iff.mp members with rfl | ⟨sort, place, rfl, held⟩
  · rfl
  · exact
      tupleMembers?_eq_some_iff.mpr
        (.inr ⟨sort, place, rfl, keeps place items held⟩)

/-- As long as tuples are kept, constants stay constants and read the same. -/
theorem Keeps.readWithin
    {before after : Store}
    {levels : Nat}
    {value : Value}
    (keeps : before.Keeps after)
    (constant : before.isConstantWithin levels value = true) :
    after.isConstantWithin levels value = true ∧
      after.readWithin levels value = before.readWithin levels value := by
  induction levels generalizing value with
  | zero => exact ⟨constant, rfl⟩
  | succ levels inductionHypothesis =>
      cases members : before.tupleMembers? value with
      | none =>
          rw [isConstantWithin_of_no_tuple members] at constant
          rw [readWithin_of_no_tuple members]
          exact after.isConstantWithin_of_constant (levels + 1) constant
      | some items =>
          have kept := keeps.tupleMembers? members
          rw [isConstantWithin_of_members members] at constant
          rw [isConstantWithin_of_members kept, readWithin_of_members kept,
            readWithin_of_members members]
          refine
            ⟨fun item member => (inductionHypothesis (constant item member)).1,
              congrArg Value.tuple ?_⟩
          exact
            List.map_congr_left fun item member =>
              (inductionHypothesis (constant item member)).2

section Comparing

variable
  {store : Store}
  {containers levels : Nat}
  {first second value : Value}

/-- A tuple and a constant that is none differ, through however many containers. -/
theorem sameWithin_of_tuple_atom
    (store : Store)
    (containers : Nat)
    (items others : List Value)
    {atom : Value}
    (constant : atom.isConstant = true)
    (noTuple : store.tupleMembers? atom = none) :
    store.sameWithin (containers + 1) (.tuple items) atom =
        .ok ((Value.tuple others).equals atom) ∧
      store.sameWithin (containers + 1) atom (.tuple items) =
        .ok (atom.equals (.tuple others)) := by
  cases atom with
  | none | bool | int | text | nonterminal => exact ⟨rfl, rfl⟩
  | tuple => cases noTuple
  | _ => cases constant

/-- What is no mention is compared by members, if it has any. -/
theorem sameWithin_of_no_mention
    (inside :
      ∀ {item other},
        store.isConstantWithin levels item = true →
          store.isConstantWithin levels other = true →
            store.sameWithin (containers + 1) item other =
              .ok
                ((store.readWithin levels item).equals
                  (store.readWithin levels other)))
    (firstConstant : store.isConstantWithin (levels + 1) first = true)
    (secondConstant : store.isConstantWithin (levels + 1) second = true)
    (firstThere : first.isMention = false)
    (secondThere : second.isMention = false) :
    store.sameWithin (containers + 1) first second =
      .ok
        ((store.readWithin (levels + 1) first).equals
          (store.readWithin (levels + 1) second)) := by
  have isTuple :
      ∀ {value items},
        value.isMention = false → store.tupleMembers? value = some items →
          value = .tuple items := by
    intro value items there members
    rcases tupleMembers?_eq_some_iff.mp members with same | ⟨sort, place, rfl, _⟩
    · exact same
    · cases there
  cases members : store.tupleMembers? first with
  | none =>
      rw [isConstantWithin_of_no_tuple members] at firstConstant
      rw [readWithin_of_no_tuple members]
      cases otherMembers : store.tupleMembers? second with
      | none =>
          rw [isConstantWithin_of_no_tuple otherMembers] at secondConstant
          rw [readWithin_of_no_tuple otherMembers]
          exact store.sameWithin_constant containers firstConstant secondConstant
      | some others =>
          rw [readWithin_of_members otherMembers]
          obtain rfl := isTuple secondThere otherMembers
          exact
            (store.sameWithin_of_tuple_atom containers others _ firstConstant
              members).2
  | some items =>
      rw [isConstantWithin_of_members members] at firstConstant
      rw [readWithin_of_members members]
      obtain rfl := isTuple firstThere members
      cases otherMembers : store.tupleMembers? second with
      | none =>
          rw [isConstantWithin_of_no_tuple otherMembers] at secondConstant
          rw [readWithin_of_no_tuple otherMembers]
          exact
            (store.sameWithin_of_tuple_atom containers items _ secondConstant
              otherMembers).1
      | some others =>
          rw [isConstantWithin_of_members otherMembers] at secondConstant
          rw [readWithin_of_members otherMembers]
          obtain rfl := isTuple secondThere otherMembers
          exact
            Value.agreesAll_of_agrees _ _ fun item member other otherMember =>
              inside (firstConstant item member)
                (secondConstant other otherMember)

/-- What a constant mentions is no mention, and reads as the constant does. -/
theorem lookAt_constant
    (constant : store.isConstantWithin (levels + 1) value = true) :
    (store.lookAt value).isMention = false ∧
      store.isConstantWithin (levels + 1) (store.lookAt value) = true ∧
      store.readWithin (levels + 1) (store.lookAt value) =
        store.readWithin (levels + 1) value := by
  cases value with
  | shared sort place =>
      cases members : store.tupleMembers? (.shared sort place) with
      | none =>
          rw [isConstantWithin_of_no_tuple members] at constant
          cases constant
      | some items =>
          have held : store.lookAt (.shared sort place) = .tuple items := by
            rcases tupleMembers?_eq_some_iff.mp members with
                same | ⟨_, _, same, content⟩
            · cases same
            · cases same
              simp [lookAt, contentAt, content]
          have there : store.tupleMembers? (.tuple items) = some items := rfl
          rw [isConstantWithin_of_members members] at constant
          rw [held, isConstantWithin_of_members there, readWithin_of_members there,
            readWithin_of_members members]
          exact ⟨rfl, constant, rfl⟩
  | _ => exact ⟨rfl, constant, rfl⟩

theorem samePlace_iff :
    first.samePlace second = true ↔ first.isMention = true ∧ first = second := by
  cases first <;> cases second <;> simp [Value.samePlace, Value.isMention]

/-- Where a value is mentioned, comparing looks at what is there, or takes it for the same. -/
theorem sameWithin_of_mention
    (mentioned : (first.isMention || second.isMention) = true) :
    store.sameWithin (containers + 1) first second =
      if first.samePlace second then
        .ok true
      else
        store.sameWithin containers (store.lookAt first) (store.lookAt second) := by
  have unlike :
      ∀ how : Comparison (Except Fault),
        first.agrees how second = how.unlike first second := by
    intro how
    cases first <;> cases second <;> first | rfl | cases mentioned
  simp only [sameWithin, unlike, mentioned, if_true]

/-- Comparing constants goes through one container on each level at most. -/
theorem sameWithin_of_constants
    (enough : levels < containers)
    (firstConstant : store.isConstantWithin levels first = true)
    (secondConstant : store.isConstantWithin levels second = true) :
    store.sameWithin containers first second =
      .ok
        ((store.readWithin levels first).equals
          (store.readWithin levels second)) := by
  -- The induction is on the levels: on each of them at most one container is used up.
  induction levels generalizing containers first second with
  | zero =>
      obtain ⟨left, rfl⟩ := Nat.exists_eq_add_of_lt enough
      exact store.sameWithin_constant _ firstConstant secondConstant
  | succ levels inductionHypothesis =>
      obtain ⟨left, rfl⟩ : ∃ left, containers = left + 1 + 1 :=
        ⟨containers - 2, by omega⟩
      cases either : first.isMention || second.isMention with
      | false =>
          obtain ⟨there, otherThere⟩ := Bool.or_eq_false_iff.mp either
          exact
            sameWithin_of_no_mention (inductionHypothesis (by omega))
              firstConstant secondConstant there otherThere
      | true =>
          rw [sameWithin_of_mention either]
          by_cases samePlace : first.samePlace second = true
          · -- Nobody looks at one place twice, and nobody needs to: a constant equals itself.
            obtain ⟨_, rfl⟩ := samePlace_iff.mp samePlace
            have reads := readWithin_isConstant firstConstant
            rw [if_pos samePlace, (Value.equals_iff_canonical reads reads).mpr rfl]
          · obtain ⟨there, constant, reads⟩ := lookAt_constant firstConstant
            obtain ⟨otherThere, otherConstant, otherReads⟩ :=
              lookAt_constant secondConstant
            rw [if_neg samePlace, ← reads, ← otherReads]
            exact
              sameWithin_of_no_mention (inductionHypothesis (by omega)) constant
                otherConstant there otherThere

end Comparing

/-- How many levels of mentions a constant has at most, so that it compares. -/
def deepestConstant : Nat := deepest - 1

/-- A value is made of atoms and of tuples, whether these lie in the store or not. -/
def IsConstant
    (store : Store)
    (value : Value) :
    Prop :=
  store.isConstantWithin deepestConstant value = true

instance
    (store : Store)
    (value : Value) :
    Decidable (store.IsConstant value) :=
  inferInstanceAs (Decidable (store.isConstantWithin deepestConstant value = true))

/-- What a constant comes to when tuples are looked through. -/
def reading
    (store : Store)
    (value : Value) :
    Value :=
  store.readWithin deepestConstant value

/-- What equal constants have in common. -/
def key
    (store : Store)
    (value : Value) :
    Value :=
  (store.reading value).canonical

section Constants

variable
  {store : Store}
  {first second value : Value}

/-- What mentions nothing is a constant in all stores, or in none. -/
theorem isConstant_of_constant
    (store : Store)
    (constant : value.isConstant = true) :
    store.IsConstant value :=
  (store.isConstantWithin_of_constant deepestConstant constant).1

theorem reading_constant
    (store : Store)
    (constant : value.isConstant = true) :
    store.reading value = value :=
  (store.isConstantWithin_of_constant deepestConstant constant).2

theorem reading_isConstant
    (constant : store.IsConstant value) :
    (store.reading value).isConstant = true :=
  readWithin_isConstant constant

/-- A constant shows as what it reads as. -/
theorem resolve_eq_reading
    (constant : store.IsConstant value) :
    store.resolve value = store.reading value :=
  resolve_eq_readWithin constant

/-- Comparing constants leads to a verdict on what they read as. -/
theorem same_of_constants
    (firstConstant : store.IsConstant first)
    (secondConstant : store.IsConstant second) :
    store.same first second =
      .ok ((store.reading first).equals (store.reading second)) :=
  sameWithin_of_constants (by decide) firstConstant secondConstant

/-- A constant equals itself. -/
theorem same_self
    (constant : store.IsConstant value) :
    store.same value value = .ok true := by
  have closed := reading_isConstant constant
  rw [same_of_constants constant constant, Except.ok.injEq]
  exact (Value.equals_iff_canonical closed closed).mpr rfl

/-- A constant equals what it shows as. -/
theorem same_resolve
    (constant : store.IsConstant value) :
    store.same (store.resolve value) value = .ok true := by
  have closed := reading_isConstant constant
  rw [resolve_eq_reading constant,
    same_of_constants (store.isConstant_of_constant closed) constant,
    store.reading_constant closed, Except.ok.injEq]
  exact (Value.equals_iff_canonical closed closed).mpr rfl

/-- What constants read as is equal just if they have the same key. -/
theorem equals_iff_key
    (firstConstant : store.IsConstant first)
    (secondConstant : store.IsConstant second) :
    (store.reading first).equals (store.reading second) = true ↔
      store.key first = store.key second :=
  Value.equals_iff_canonical (reading_isConstant firstConstant)
    (reading_isConstant secondConstant)

/-- Constants are equal just if they have the same key. -/
theorem same_iff_key
    (firstConstant : store.IsConstant first)
    (secondConstant : store.IsConstant second) :
    store.same first second = .ok true ↔ store.key first = store.key second := by
  rw [same_of_constants firstConstant secondConstant, Except.ok.injEq]
  exact equals_iff_key firstConstant secondConstant

theorem same_eq_false_iff
    (firstConstant : store.IsConstant first)
    (secondConstant : store.IsConstant second) :
    store.same first second = .ok false ↔ store.key first ≠ store.key second := by
  rw [Ne, ← same_iff_key firstConstant secondConstant,
    same_of_constants firstConstant secondConstant]
  simp

/-- Constants that differ from each other have keys that differ. -/
theorem keys_nodup
    {α : Type}
    {items : List α}
    {value : α → Value}
    (constants : ∀ item ∈ items, store.IsConstant (value item))
    (different :
      items.Pairwise fun first second =>
        store.same (value first) (value second) = .ok false) :
    (items.map fun item => store.key (value item)).Nodup := by
  refine List.pairwise_map.mpr (different.imp_of_mem ?_)
  intro first second member otherMember
  exact (same_eq_false_iff (constants first member) (constants second otherMember)).mp

/-- Constants that read as equals are filed alike. -/
theorem hashKey_of_equal_readings
    {levels others : Nat}
    (firstConstant : store.isConstantWithin levels first = true)
    (secondConstant : store.isConstantWithin others second = true)
    (equal :
      (store.readWithin levels first).equals (store.readWithin others second) = true) :
    store.hashKey first = store.hashKey second := by
  rw [hashKey, hashKey, resolve_eq_readWithin firstConstant,
    resolve_eq_readWithin secondConstant]
  exact
    Value.hashKey_of_equal_constants (readWithin_isConstant firstConstant) equal

/-- A dictionary takes constants for the same key when they are equal. -/
theorem sameKey_of_constants
    (firstConstant : store.IsConstant first)
    (secondConstant : store.IsConstant second) :
    store.sameKey first second = store.same first second := by
  rw [sameKey, same_of_constants firstConstant secondConstant]
  apply judgeKeys_ok
  intro equal
  rw [hashKey_of_equal_readings firstConstant secondConstant equal]
  exact HashKey.mayMeet_self _

/-- Every constant can be filed, on however many levels it is one. -/
theorem hashKey_of_constant
    {levels : Nat}
    (constant : store.isConstantWithin levels value = true) :
    ∃ hash, store.hashKey value = .ok hash := by
  rw [hashKey, resolve_eq_readWithin constant]
  exact Value.hashKey_constant (readWithin_isConstant constant)

variable {after : Store}

theorem Keeps.isConstant
    (keeps : store.Keeps after)
    (constant : store.IsConstant value) :
    after.IsConstant value :=
  (keeps.readWithin constant).1

theorem Keeps.reading
    (keeps : store.Keeps after)
    (constant : store.IsConstant value) :
    after.reading value = store.reading value :=
  (keeps.readWithin constant).2

end Constants

end Store

end ShiftReduce
