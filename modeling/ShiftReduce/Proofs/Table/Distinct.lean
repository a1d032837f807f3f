import Mathlib.Data.List.Nodup
import ShiftReduce.Proofs.Table.Filed

namespace ShiftReduce

/-!
# Cells that differ

No two cells of a table answer the same question.  Cells under constant states and labels
answer the same question just if they have the same key (`Cell.key`), so what inserting
keeps is that keys differ (`Cell.insertAll_distinct`).

Among such cells there is at most one for a question.  Whether it is found, and what it
says, does not depend on the order of the cells (`Cell.find?_of_perm`).
-/

/-- What is searched for by a key that no two items share is found wherever it stands. -/
theorem find?_eq_some_iff_of_nodup
    {α κ : Type}
    {keyOf : α → κ}
    {key : κ}
    {isSought : α → Bool}
    {items : List α}
    (nodup : (items.map keyOf).Nodup)
    (sought : ∀ item ∈ items, (isSought item = true ↔ keyOf item = key))
    {item : α} :
    items.find? isSought = some item ↔ item ∈ items ∧ keyOf item = key := by
  constructor
  · intro found
    have member := List.mem_of_find?_eq_some found
    exact ⟨member, (sought item member).mp (List.find?_some found)⟩
  · rintro ⟨member, keyed⟩
    have present : (items.find? isSought).isSome = true :=
      List.find?_isSome.mpr ⟨item, member, (sought item member).mpr keyed⟩
    obtain ⟨first, found⟩ := Option.isSome_iff_exists.mp present
    have firstMember := List.mem_of_find?_eq_some found
    have firstKeyed := (sought first firstMember).mp (List.find?_some found)
    have same :=
      List.inj_on_of_nodup_map nodup firstMember member
        (firstKeyed.trans keyed.symm)
    rw [found, same]

/-- Two searches that find the same where they find anything come to the same. -/
theorem found_ext
    {first second : Except Fault (Option Value)}
    {found otherFound : Option Value}
    (ended : first = .ok found)
    (otherEnded : second = .ok otherFound)
    (alike : ∀ entry, first = .ok (some entry) ↔ second = .ok (some entry)) :
    first = second := by
  subst ended otherEnded
  exact congrArg Except.ok (Option.ext fun entry => by simpa using alike entry)

namespace Cell

variable
  {store : Store}
  {state label entry : Value}
  {cell new : Cell}
  {cells others : List Cell}

/-- A cell is filed under a constant state and a label. -/
structure Labelled
    (store : Store)
    (cell : Cell) :
    Prop where
  state : store.IsConstant cell.state
  column : cell.column.isLabel = true

theorem Labelled.filed
    (labelled : cell.Labelled store) :
    cell.Filed store :=
  ⟨labelled.state, fun _ =>
    store.isConstant_of_constant (Value.isConstant_label labelled.column)⟩

/-- What cells for the same question have in common. -/
def key
    (store : Store)
    (cell : Cell) :
    Value × Value :=
  (store.key cell.state, cell.column)

/-- A cell is for a state and a label just if they are its key. -/
theorem Labelled.isFor_iff
    (labelled : cell.Labelled store)
    (constant : store.IsConstant state)
    (labels : label.isLabel = true) :
    cell.isFor store state label = true ↔
      cell.key store = (store.key state, label) := by
  rw [isFor, Bool.and_eq_true,
    store.reading_constant (Value.isConstant_label labelled.column),
    Value.equals_label_iff labelled.column labels,
    Store.equals_iff_key labelled.state constant]
  exact (Prod.mk.injEq _ _ _ _).symm.to_iff

/-- Cells no two of which have the same key. -/
def Distinct
    (store : Store)
    (cells : List Cell) :
    Prop :=
  (cells.map (key store)).Nodup

/-- Keys differ with one more cell behind if that has a new key. -/
theorem distinct_concat
    (store : Store)
    (cells : List Cell)
    (new : Cell) :
    Distinct store (cells ++ [new]) ↔
      new.key store ∉ cells.map (key store) ∧ Distinct store cells := by
  rw [Distinct, List.map_append, List.map_singleton, ← List.concat_eq_append]
  exact List.nodup_concat _ _

section LookUp

variable
  (labelled : ∀ cell ∈ cells, cell.Labelled store)
  (distinct : Distinct store cells)
  (constant : store.IsConstant state)
  (labels : label.isLabel = true)

include labelled constant labels

/-- Looking up a label in a constant state leads to a verdict. -/
theorem find?_of_labelled :
    find? store cells state label =
      .ok ((cells.find? (isFor store state label)).map Cell.entry) :=
  find?_of_filed (fun cell member => (labelled cell member).filed) constant labels

include distinct

/-- What is found is what the one cell with the key says. -/
theorem find?_eq_some_iff :
    find? store cells state label = .ok (some entry) ↔
      ∃ cell ∈ cells,
        cell.key store = (store.key state, label) ∧ cell.entry = entry := by
  have found :
      ∀ {cell},
        cells.find? (isFor store state label) = some cell ↔
          cell ∈ cells ∧ cell.key store = (store.key state, label) :=
    find?_eq_some_iff_of_nodup distinct fun cell member =>
      (labelled cell member).isFor_iff constant labels
  rw [find?_of_labelled labelled constant labels, Except.ok.injEq,
    Option.map_eq_some_iff]
  simp only [found, and_assoc]

/-- What is found does not depend on the order of the cells. -/
theorem find?_of_perm
    (perm : others.Perm cells) :
    find? store others state label = find? store cells state label := by
  have otherLabelled : ∀ cell ∈ others, cell.Labelled store :=
    fun cell member => labelled cell (perm.mem_iff.mp member)
  have otherDistinct : Distinct store others :=
    (perm.map (key store)).nodup_iff.mpr distinct
  refine
    found_ext (find?_of_labelled otherLabelled constant labels)
      (find?_of_labelled labelled constant labels) fun entry => ?_
  rw [find?_eq_some_iff labelled distinct constant labels,
    find?_eq_some_iff otherLabelled otherDistinct constant labels]
  simp only [perm.mem_iff]

end LookUp

/-- A cell is filed under the state and the column of one of several cells. -/
def FiledAs
    (cells : List Cell)
    (cell : Cell) :
    Prop :=
  ∃ origin ∈ cells, origin.state = cell.state ∧ origin.column = cell.column

theorem FiledAs.labelled
    (labelled : ∀ cell ∈ cells, cell.Labelled store)
    (filedAs : cell.FiledAs cells) :
    cell.Labelled store := by
  obtain ⟨origin, member, sameState, sameColumn⟩ := filedAs
  exact ⟨sameState ▸ (labelled origin member).state,
    sameColumn ▸ (labelled origin member).column⟩

theorem filedAs_of_mem
    (member : cell ∈ cells) :
    cell.FiledAs cells :=
  ⟨cell, member, rfl, rfl⟩

theorem FiledAs.trans
    (filedAs : cell.FiledAs cells)
    (each : ∀ origin ∈ cells, origin.FiledAs others) :
    cell.FiledAs others := by
  obtain ⟨origin, member, sameState, sameColumn⟩ := filedAs
  obtain ⟨first, firstMember, firstState, firstColumn⟩ := each origin member
  exact
    ⟨first, firstMember, firstState.trans sameState, firstColumn.trans sameColumn⟩

section Insertion

variable
  (labelled : ∀ cell ∈ cells, cell.Labelled store)
  (newLabelled : new.Labelled store)

include labelled newLabelled

/-- A cell takes the place of the one with its key, or is put behind all others. -/
theorem insert_cases :
    ∃ result,
      insert store cells new = .ok result ∧
        (∀ cell ∈ result, cell.FiledAs (new :: cells)) ∧
        (new.key store ∈ cells.map (key store) ∧
            result.map (key store) = cells.map (key store) ∨
          new.key store ∉ cells.map (key store) ∧ result = cells ++ [new]) := by
  obtain ⟨hash, hashed⟩ := hashKey_pair newLabelled.state newLabelled.column
  rw [insert, hashed]
  simp only [bind, Except.bind]
  clear hashed
  induction cells with
  | nil =>
      cases new with
      | mk state column entry =>
          refine ⟨_, rfl, ?_, .inr ⟨by simp, rfl⟩⟩
          exact fun cell member => filedAs_of_mem member
  | cons cell rest inductionHypothesis =>
      have first := labelled cell List.mem_cons_self
      have answer :=
        first.filed.answers_eq newLabelled.state newLabelled.column
      have keyed := first.isFor_iff newLabelled.state newLabelled.column
      change _ ↔ cell.key store = new.key store at keyed
      cases matching : cell.isFor store new.state new.column with
      | true =>
          rw [matching] at answer
          have same := keyed.mp matching
          refine ⟨⟨cell.state, cell.column, new.entry⟩ :: rest, ?_, ?_, .inl ⟨?_, rfl⟩⟩
          · simp only [put, answer, bind, Except.bind, if_true]
            rfl
          · refine List.forall_mem_cons.mpr ⟨⟨cell, by simp, rfl, rfl⟩, ?_⟩
            exact fun other member => filedAs_of_mem (by simp [member])
          · exact List.mem_cons.mpr (.inl same.symm)
      | false =>
          rw [matching] at answer keyed
          have differs : new.key store ≠ cell.key store :=
            fun same => by simpa using keyed.mpr same.symm
          obtain ⟨result, inserted, origins, kept⟩ :=
            inductionHypothesis fun other member =>
              labelled other (List.mem_cons_of_mem cell member)
          refine ⟨cell :: result, ?_, ?_, ?_⟩
          · simp only [put, answer, inserted, bind, Except.bind]
            rfl
          · refine List.forall_mem_cons.mpr ⟨filedAs_of_mem (by simp), ?_⟩
            intro other member
            refine (origins other member).trans fun origin originMember => ?_
            exact
              filedAs_of_mem
                (List.cons_subset_cons new (List.subset_cons_self cell rest)
                  originMember)
          · simp only [List.map_cons, List.mem_cons, differs, false_or,
              List.cons.injEq, true_and, List.cons_append]
            exact kept

/-- A cell with a new key is put behind all others. -/
theorem insert_of_new
    (absent : new.key store ∉ cells.map (key store)) :
    insert store cells new = .ok (cells ++ [new]) := by
  obtain ⟨result, inserted, _, ⟨present, _⟩ | ⟨_, rfl⟩⟩ :=
    insert_cases labelled newLabelled
  · exact absurd present absent
  · exact inserted

/-- Inserting a cell keeps that keys differ. -/
theorem insert_distinct
    (distinct : Distinct store cells) :
    ∃ result,
      insert store cells new = .ok result ∧
        (∀ cell ∈ result, cell.FiledAs (new :: cells)) ∧
        Distinct store result := by
  obtain ⟨result, inserted, origins, kept⟩ :=
    insert_cases labelled newLabelled
  refine ⟨result, inserted, origins, ?_⟩
  rcases kept with ⟨_, sameKeys⟩ | ⟨absent, rfl⟩
  · rw [Distinct, sameKeys]
    exact distinct
  · exact (distinct_concat store cells new).mpr ⟨absent, distinct⟩

end Insertion

/-- Whatever labelled cells are inserted in order, their keys differ in the end. -/
theorem insertAll_distinct
    (labelled : ∀ cell ∈ cells ++ others, cell.Labelled store)
    (distinct : Distinct store cells) :
    ∃ result,
      insertAll store cells others = .ok result ∧
        (∀ cell ∈ result, cell.FiledAs (cells ++ others)) ∧
        Distinct store result := by
  -- What is there already varies: each insertion goes on from where the last one left.
  induction others generalizing cells with
  | nil =>
      rw [List.append_nil]
      exact ⟨cells, rfl, fun cell member => filedAs_of_mem member, distinct⟩
  | cons new rest inductionHypothesis =>
      obtain ⟨next, inserted, origins, nextDistinct⟩ :=
        insert_distinct (fun cell member => labelled cell (by simp [member]))
          (labelled new (by simp)) distinct
      have fromAll : ∀ cell ∈ next ++ rest, cell.FiledAs (cells ++ new :: rest) := by
        intro cell member
        rcases List.mem_append.mp member with inNext | inRest
        · refine (origins cell inNext).trans fun origin originMember => ?_
          refine filedAs_of_mem ?_
          rcases List.mem_cons.mp originMember with rfl | earlier
          · simp
          · simp [earlier]
        · exact filedAs_of_mem (by simp [inRest])
      obtain ⟨result, ended, resultOrigins, resultDistinct⟩ :=
        inductionHypothesis
          (fun cell member => (fromAll cell member).labelled labelled)
          nextDistinct
      refine
        ⟨result, ?_, fun cell member => (resultOrigins cell member).trans fromAll,
          resultDistinct⟩
      simp only [insertAll, inserted, bind, Except.bind]
      exact ended

/-- Cells whose keys differ are inserted one behind the other. -/
theorem insertAll_of_distinct
    (labelled : ∀ cell ∈ cells ++ others, cell.Labelled store)
    (distinct : Distinct store (cells ++ others)) :
    insertAll store cells others = .ok (cells ++ others) := by
  induction others generalizing cells with
  | nil => rw [List.append_nil, insertAll]
  | cons new rest inductionHypothesis =>
      rw [List.append_cons] at labelled distinct ⊢
      have before : ∀ cell ∈ cells, cell.Labelled store :=
        fun cell member => labelled cell (by simp [member])
      have soFar : Distinct store (cells ++ [new]) := by
        rw [Distinct, List.map_append] at distinct
        exact distinct.of_append_left
      have absent := ((distinct_concat store cells new).mp soFar).1
      simp only [insertAll,
        insert_of_new before (labelled new (by simp)) absent, bind, Except.bind]
      exact inductionHypothesis labelled distinct

end Cell

end ShiftReduce
