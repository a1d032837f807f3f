import Mathlib.Data.Set.List
import Mathlib.Data.String.Basic
import ShiftReduce.Proofs.Table.Distinct

namespace ShiftReduce

/-!
# What a table expects

A table that says what it expects in a state goes through all its cells and compares their
states, whereas an action is looked up under a pair.  Both come to the same: the kinds that
are expected are those with an action that is no error (`Table.Diagnosable.expected`).  They
come in order, and each but once, because no two cells answer the same question.
-/

namespace Table

variable
  {table : Table}
  {store other : Store}
  {state : Value}
  {cells : List Cell}

/-- Whether a cell makes a state expect its column. -/
def invites
    (store : Store)
    (state : Value)
    (cell : Cell) :
    Bool :=
  (store.reading cell.state).equals (store.reading state) &&
    isWelcoming cell.entry

/-- In a constant state the columns of cells that invite them are expected. -/
theorem expectedColumns_of_constants
    (constants : ∀ cell ∈ cells, store.IsConstant cell.state)
    (constant : store.IsConstant state) :
    expectedColumns store state cells =
      .ok ((cells.filter (invites store state)).map Cell.column) := by
  induction cells with
  | nil => rfl
  | cons cell rest inductionHypothesis =>
      have others :=
        inductionHypothesis fun other member =>
          constants other (List.mem_cons_of_mem cell member)
      have same := Store.same_of_constants (constants cell List.mem_cons_self) constant
      rw [expectedColumns, same, others, List.filter_cons, invites]
      simp only [bind, Except.bind]
      split
      · rfl
      · rfl

/-- Texts are sorted by code point. -/
theorem sorted_texts
    (store : Store)
    (kinds : List String) :
    store.sorted (kinds.map .text) =
      .ok ((kinds.mergeSort fun first second => decide (first ≤ second)).map .text) := by
  have texts : (kinds.map Value.text).all Value.isText = true := by
    simp [Value.isText]
  rw [Store.sorted, if_pos texts]
  refine congrArg Except.ok (List.map_mergeSort ?_).symm
  intro first _ second _
  simp [Value.notAfter, ← not_lt]

/-- Texts that differ are in strict order once they are sorted. -/
theorem mergeSort_strict
    {kinds : List String}
    (nodup : kinds.Nodup) :
    (kinds.mergeSort fun first second => decide (first ≤ second)).Pairwise
      (· < ·) := by
  have ordered :
      (kinds.mergeSort fun first second => decide (first ≤ second)).Pairwise
        fun first second => decide (first ≤ second) = true := by
    refine List.pairwise_mergeSort ?_ ?_ kinds
    · intro first second third before after
      rw [decide_eq_true_eq] at before after ⊢
      exact before.trans after
    · intro first second
      simp only [Bool.or_eq_true, decide_eq_true_eq]
      exact le_total first second
  have different :=
    (List.mergeSort_perm kinds fun first second => decide (first ≤ second)).nodup_iff.mpr
      nodup
  refine (ordered.and different).imp ?_
  rintro first second ⟨notAfter, differs⟩
  exact lt_of_le_of_ne (decide_eq_true_eq.mp notAfter) differs

/--
A table with constant states and texts for kinds, no two of whose actions answer the same
question, and which computes what it expects.
-/
structure Diagnosable
    (table : Table)
    (store : Store) :
    Prop where
  constants : ∀ cell ∈ table.actions, store.IsConstant cell.state
  kinds : ∀ cell ∈ table.actions, cell.column.isText = true
  distinct : Cell.Distinct store table.actions
  computed : table.diagnosis = .computed

/-- Every table that computes what it expects is so, if it is made of such cells. -/
theorem diagnosable_of_build
    {identity : Nat}
    {actions gotos : List Cell}
    {initial : Value}
    (constants : ∀ cell ∈ actions, store.IsConstant cell.state)
    (kinds : ∀ cell ∈ actions, cell.column.isText = true)
    (built : build store identity actions gotos initial .computed = .ok table) :
    table.Diagnosable store := by
  have labelled : ∀ cell ∈ [] ++ actions, cell.Labelled store :=
    fun cell member =>
      ⟨constants cell member, Value.isLabel_of_isText (kinds cell member)⟩
  obtain ⟨result, inserted, origins, distinct⟩ :=
    Cell.insertAll_distinct labelled (List.nodup_nil : Cell.Distinct store [])
  rw [build, inserted] at built
  cases gotosInserted : Cell.insertAll store [] gotos with
  | error cause =>
      rw [gotosInserted] at built
      cases built
  | ok resultGotos =>
      rw [gotosInserted] at built
      cases built
      refine ⟨?_, ?_, distinct, rfl⟩
      · exact fun cell member => ((origins cell member).labelled labelled).state
      · intro cell member
        obtain ⟨origin, originMember, _, sameColumn⟩ := origins cell member
        exact sameColumn ▸ kinds origin originMember

namespace Diagnosable

theorem labelled
    (diagnosable : table.Diagnosable store) :
    ∀ cell ∈ table.actions, cell.Labelled store :=
  fun cell member =>
    ⟨diagnosable.constants cell member,
      Value.isLabel_of_isText (diagnosable.kinds cell member)⟩

/-- A table can be diagnosed as long as tuples are kept. -/
theorem transfer
    (diagnosable : table.Diagnosable store)
    (keeps : store.Keeps other) :
    table.Diagnosable other where
  constants := fun cell member => keeps.isConstant (diagnosable.constants cell member)
  kinds := diagnosable.kinds
  distinct := by
    have sameKeys :
        table.actions.map (Cell.key other) = table.actions.map (Cell.key store) := by
      refine List.map_congr_left fun cell member => ?_
      rw [Cell.key, Cell.key, Store.key, Store.key,
        keeps.reading (diagnosable.constants cell member)]
    rw [Cell.Distinct, sameKeys]
    exact diagnosable.distinct
  computed := diagnosable.computed

/-- Every kind has an action, which is no error just if the cell for it says so. -/
theorem action_welcoming
    (diagnosable : table.Diagnosable store)
    (constant : store.IsConstant state)
    (kind : String) :
    ∃ entry,
      table.action store state (.text kind) = .ok entry ∧
        (isWelcoming entry = true ↔
          ∃ cell ∈ table.actions,
            cell.key store = (store.key state, .text kind) ∧
              isWelcoming cell.entry = true) := by
  have found :
      ∀ entry,
        Cell.find? store table.actions state (.text kind) = .ok (some entry) ↔
          ∃ cell ∈ table.actions,
            cell.key store = (store.key state, .text kind) ∧ cell.entry = entry :=
    fun entry =>
      Cell.find?_eq_some_iff diagnosable.labelled diagnosable.distinct constant rfl
  have searched :=
    Cell.find?_of_labelled diagnosable.labelled constant
      (rfl : (Value.text kind).isLabel = true)
  cases sought :
      (table.actions.find? (Cell.isFor store state (.text kind))).map Cell.entry with
  | none =>
      rw [sought] at searched
      refine ⟨.action (.error .direct), by rw [action, searched]; rfl, nofun, ?_⟩
      rintro ⟨cell, member, keyed, _⟩
      have present := (found cell.entry).mpr ⟨cell, member, keyed, rfl⟩
      rw [searched] at present
      cases present
  | some held =>
      rw [sought] at searched
      refine ⟨held, by rw [action, searched]; rfl, ?_, ?_⟩
      · intro welcoming
        obtain ⟨cell, member, keyed, rfl⟩ := (found held).mp searched
        exact ⟨cell, member, keyed, welcoming⟩
      · rintro ⟨cell, member, keyed, welcoming⟩
        have present := (found cell.entry).mpr ⟨cell, member, keyed, rfl⟩
        rw [searched] at present
        cases present
        exact welcoming

/-- Which cells invite a kind in a state. -/
theorem invites_iff
    (diagnosable : table.Diagnosable store)
    (constant : store.IsConstant state)
    {cell : Cell}
    (member : cell ∈ table.actions) :
    invites store state cell = true ↔
      store.key cell.state = store.key state ∧ isWelcoming cell.entry = true := by
  rw [invites, Bool.and_eq_true,
    Store.equals_iff_key (diagnosable.constants cell member) constant]

/-- The columns that cells invite in a state differ. -/
theorem columns_nodup
    (diagnosable : table.Diagnosable store)
    (constant : store.IsConstant state) :
    ((table.actions.filter (invites store state)).map Cell.column).Nodup := by
  have keys :
      (table.actions.filter (invites store state)).map (Cell.key store) =
        ((table.actions.filter (invites store state)).map Cell.column).map
          (Prod.mk (store.key state)) := by
    rw [List.map_map]
    refine List.map_congr_left fun cell member => ?_
    obtain ⟨inTable, invited⟩ := List.mem_filter.mp member
    have sameState := ((diagnosable.invites_iff constant inTable).mp invited).1
    rw [Cell.key, sameState]
    rfl
  refine List.Nodup.of_map (Prod.mk (store.key state)) ?_
  rw [← keys]
  exact diagnosable.distinct.sublist (List.filter_sublist.map _)

/--
In every constant state the kinds are expected, in order, that have an action other than an
error.
-/
theorem expectedKinds
    (diagnosable : table.Diagnosable store)
    (constant : store.IsConstant state) :
    ∃ kinds : List String,
      table.expectedKinds store state = .ok (kinds.map .text) ∧
        kinds.Pairwise (· < ·) ∧
        ∀ kind,
          ∃ entry,
            table.action store state (.text kind) = .ok entry ∧
              (kind ∈ kinds ↔ isWelcoming entry = true) := by
  obtain ⟨kinds, texts⟩ :
      ∃ kinds : List String,
        kinds.map Value.text =
          (table.actions.filter (invites store state)).map Cell.column := by
    have allTexts :
        (table.actions.filter (invites store state)).map Cell.column ∈
          Set.range (List.map Value.text) := by
      rw [Set.range_list_map]
      intro column member
      obtain ⟨cell, inFilter, rfl⟩ := List.mem_map.mp member
      have isText := diagnosable.kinds cell (List.mem_filter.mp inFilter).1
      cases shape : cell.column with
      | text content => exact ⟨content, rfl⟩
      | _ => simp [shape, Value.isText] at isText
    exact allTexts
  have nodup : kinds.Nodup := by
    refine List.Nodup.of_map Value.text ?_
    rw [texts]
    exact diagnosable.columns_nodup constant
  refine
    ⟨kinds.mergeSort fun first second => decide (first ≤ second), ?_,
      mergeSort_strict nodup, fun kind => ?_⟩
  · rw [Table.expectedKinds,
      expectedColumns_of_constants diagnosable.constants constant, ← texts]
    exact sorted_texts store kinds
  · have listed :
        kind ∈ kinds ↔
          Value.text kind ∈
            (table.actions.filter (invites store state)).map Cell.column := by
      rw [← texts]
      exact (List.mem_map_of_injective fun _ _ => Value.text.inj).symm
    obtain ⟨entry, answered, welcoming⟩ := diagnosable.action_welcoming constant kind
    refine ⟨entry, answered, ?_⟩
    rw [List.mem_mergeSort, welcoming, listed, List.mem_map]
    constructor
    · rintro ⟨cell, inFilter, column⟩
      obtain ⟨member, invited⟩ := List.mem_filter.mp inFilter
      obtain ⟨sameState, welcomed⟩ :=
        (diagnosable.invites_iff constant member).mp invited
      exact ⟨cell, member, by rw [Cell.key, sameState, column], welcomed⟩
    · rintro ⟨cell, member, keyed, welcomed⟩
      obtain ⟨sameState, column⟩ := Prod.mk.inj keyed
      have invited :=
        (diagnosable.invites_iff constant member).mpr ⟨sameState, welcomed⟩
      exact ⟨cell, List.mem_filter.mpr ⟨member, invited⟩, column⟩

/-- What is expected in a state is expected in what it shows as. -/
theorem expectedKinds_resolve
    (diagnosable : table.Diagnosable store)
    (constant : store.IsConstant state) :
    table.expectedKinds store (store.resolve state) =
      table.expectedKinds store state := by
  have closed := Store.reading_isConstant constant
  have same : invites store (store.resolve state) = invites store state := by
    funext cell
    rw [Store.resolve_eq_reading constant, invites, invites,
      store.reading_constant closed]
  rw [Table.expectedKinds, Table.expectedKinds,
    expectedColumns_of_constants diagnosable.constants constant,
    expectedColumns_of_constants diagnosable.constants, same]
  rw [Store.resolve_eq_reading constant]
  exact store.isConstant_of_constant closed

end Diagnosable

end Table

end ShiftReduce
