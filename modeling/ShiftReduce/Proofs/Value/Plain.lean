import ShiftReduce.Proofs.Value.Constant

namespace ShiftReduce

/-!
# Plain data

Plain data is made of atoms, lists, tuples and dictionaries, a container that
comes up inside itself included.  It holds none of the things whose texts have a
gap, so that showing it never comes to a misfit (`Value.shown_plain`).

What a token carries may lie in a store.  It is plain as things stand if looking
through all places leads to plain data (`Store.IsPlain`), and then the token can be
shown, by itself as well as on a stack.
-/

mutual

/-- Whether a value is made of atoms and containers alone. -/
def Value.isPlain :
    Value → Bool
  | .none => true
  | .bool _ => true
  | .int _ => true
  | .text _ => true
  | .list items => Value.arePlain items
  | .tuple items => Value.arePlain items
  | .dict entries => Value.haveOnlyPlain entries
  | .shared .. => true
  | .nonterminal _ => true
  | _ => false
termination_by structural value => value

/-- Whether all of several values are plain. -/
def Value.arePlain :
    List Value → Bool
  | [] => true
  | value :: rest => value.isPlain && Value.arePlain rest
termination_by structural values => values

/-- Whether the entries of a dictionary have plain keys and values only. -/
def Value.haveOnlyPlain :
    List (Value × Value) → Bool
  | [] => true
  | (key, value) :: rest =>
      key.isPlain && value.isPlain && Value.haveOnlyPlain rest
termination_by structural entries => entries

end

namespace Value

/-- Constants are plain. -/
theorem isPlain_of_constant
    {value : Value}
    (constant : value.isConstant = true) :
    value.isPlain = true := by
  induction value, constant using constant_induction with
  | tuple items constant inductionHypothesis =>
      change arePlain items = true
      clear constant
      induction items with
      | nil =>
          rfl
      | cons item rest restHypothesis =>
          have first := inductionHypothesis item List.mem_cons_self
          have others :=
            restHypothesis fun other member =>
              inductionHypothesis other (List.mem_cons_of_mem item member)
          simp [arePlain, first, others]
  | _ =>
      rfl

mutual

/-- Plain data can be shown. -/
theorem shown_plain :
    ∀ {value : Value},
      value.isPlain = true → ∃ text, value.shown = .ok text
  | .none, _ => ⟨_, rfl⟩
  | .bool true, _ => ⟨_, rfl⟩
  | .bool false, _ => ⟨_, rfl⟩
  | .int _, _ => ⟨_, rfl⟩
  | .text _, _ => ⟨_, rfl⟩
  | .list items, plain => by
      have members : arePlain items = true := plain
      obtain ⟨texts, shows⟩ := shownEach_plain members
      simp [shown, shows, bind, Except.bind, pure, Except.pure]
  | .tuple items, plain => by
      have members : arePlain items = true := plain
      obtain ⟨texts, shows⟩ := shownEach_plain members
      simp [shown, shows, bind, Except.bind, pure, Except.pure]
  | .dict entries, plain => by
      have members : haveOnlyPlain entries = true := plain
      obtain ⟨texts, shows⟩ := shownEntries_plain members
      simp [shown, shows, bind, Except.bind, pure, Except.pure]
  | .shared _ _, _ => ⟨_, rfl⟩
  | .nonterminal _, _ => ⟨_, rfl⟩

/-- Several plain values can be shown in order. -/
theorem shownEach_plain :
    ∀ {values : List Value},
      arePlain values = true →
        ∃ texts, Rendering.inOrder (shownEach values) = .ok texts
  | [], _ => ⟨[], rfl⟩
  | value :: rest, plain => by
      have parts := Bool.and_eq_true_iff.mp plain
      obtain ⟨text, shows⟩ := shown_plain parts.1
      obtain ⟨texts, showsRest⟩ := shownEach_plain parts.2
      simp [shownEach, Rendering.inOrder, shows, showsRest, bind, Except.bind,
        pure, Except.pure]

/-- The entries of a plain dictionary can be shown in order. -/
theorem shownEntries_plain :
    ∀ {entries : List (Value × Value)},
      haveOnlyPlain entries = true →
        ∃ texts, Rendering.inOrder (shownEntries entries) = .ok texts
  | [], _ => ⟨[], rfl⟩
  | (key, value) :: rest, plain => by
      have parts := Bool.and_eq_true_iff.mp plain
      have pair := Bool.and_eq_true_iff.mp parts.1
      obtain ⟨keyText, showsKey⟩ := shown_plain pair.1
      obtain ⟨valueText, showsValue⟩ := shown_plain pair.2
      obtain ⟨texts, showsRest⟩ := shownEntries_plain parts.2
      simp [shownEntries, Rendering.inOrder, showsKey, showsValue, showsRest,
        bind, Except.bind, pure, Except.pure]

end

mutual

/-- What expands to plain data has no gaps, so that only its mentions matter. -/
theorem expand_of_plain
    {fill other : Filling}
    (same : ∀ sort place, other.mention sort place = fill.mention sort place) :
    ∀ {value : Value},
      (value.expand fill).isPlain = true →
        value.expand other = value.expand fill
  | .none, _ => rfl
  | .bool _, _ => rfl
  | .int _, _ => rfl
  | .text _, _ => rfl
  | .list items, plain => by
      have members : arePlain (expandAll fill items) = true := plain
      simp only [expand, expandAll_of_plain same members]
  | .tuple items, plain => by
      have members : arePlain (expandAll fill items) = true := plain
      simp only [expand, expandAll_of_plain same members]
  | .dict entries, plain => by
      have members : haveOnlyPlain (expandEntries fill entries) = true := plain
      simp only [expand, expandEntries_of_plain same members]
  | .shared sort place, _ => same sort place
  | .nonterminal _, _ => rfl

theorem expandAll_of_plain
    {fill other : Filling}
    (same : ∀ sort place, other.mention sort place = fill.mention sort place) :
    ∀ {values : List Value},
      arePlain (expandAll fill values) = true →
        expandAll other values = expandAll fill values
  | [], _ => rfl
  | value :: rest, plain => by
      have parts := Bool.and_eq_true_iff.mp plain
      simp only [expandAll, expand_of_plain same parts.1,
        expandAll_of_plain same parts.2]

theorem expandEntries_of_plain
    {fill other : Filling}
    (same : ∀ sort place, other.mention sort place = fill.mention sort place) :
    ∀ {entries : List (Value × Value)},
      haveOnlyPlain (expandEntries fill entries) = true →
        expandEntries other entries = expandEntries fill entries
  | [], _ => rfl
  | (key, value) :: rest, plain => by
      have parts := Bool.and_eq_true_iff.mp plain
      have pair := Bool.and_eq_true_iff.mp parts.1
      simp only [expandEntries, expand_of_plain same pair.1,
        expand_of_plain same pair.2, expandEntries_of_plain same parts.2]

end

end Value

namespace Store

/-- A value is plain data as things stand. -/
def IsPlain
    (store : Store)
    (value : Value) :
    Prop :=
  (store.resolve value).isPlain = true

theorem isPlain_of_constant
    (store : Store)
    {value : Value}
    (constant : value.isConstant = true) :
    store.IsPlain value := by
  unfold IsPlain
  rw [store.resolve_constant constant]
  exact Value.isPlain_of_constant constant

/-- A store fills mentions outside of any container as it does inside of values. -/
theorem expand_filling
    {store : Store}
    {value : Value}
    (plain : store.IsPlain value) :
    value.expand store.filling = store.resolve value := by
  unfold IsPlain at plain
  unfold resolve levels at plain ⊢
  rw [Nat.succ_mul] at plain ⊢
  refine Value.expand_of_plain ?_ plain
  intro sort place
  simp only [filling, resolve, levels]
  rw [Nat.succ_mul]
  rfl

theorem resolve_token
    (store : Store)
    (token : Token) :
    store.resolve (.token token) =
      .token { token with value := store.resolve token.value } := by
  rcases token with ⟨tokenClass, kind, value⟩
  unfold resolve levels
  rw [Nat.succ_mul]
  rfl

theorem shown_payload
    {store : Store}
    {token : Token}
    (plain : store.IsPlain token.value) :
    ∃ text,
      Token.shown { token with value := store.resolve token.value } =
        .ok text := by
  obtain ⟨text, shows⟩ := Value.shown_plain plain
  unfold Token.shown
  cases absent : (store.resolve token.value).isNone with
  | true => simp
  | false => simp [shows, bind, Except.bind, pure, Except.pure]

/-- A token with a plain payload can be shown. -/
theorem shown_token
    {store : Store}
    {token : Token}
    (plain : store.IsPlain token.value) :
    ∃ text, (store.resolve (.token token)).shown = .ok text := by
  rw [resolve_token]
  exact shown_payload plain

/-- A token with a plain payload can be shown on a stack. -/
theorem shown_tokenSymbol
    {store : Store}
    {token : Token}
    (plain : store.IsPlain token.value) :
    ∃ text, (store.resolveSymbol (.token token)).shown = .ok text := by
  obtain ⟨text, shows⟩ := shown_payload plain
  rw [← expand_filling plain] at shows
  rcases token with ⟨tokenClass, kind, value⟩
  exact ⟨text, shows⟩

end Store

end ShiftReduce
