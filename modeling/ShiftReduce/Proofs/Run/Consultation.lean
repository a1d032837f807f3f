import ShiftReduce.Proofs.Run.Lookups
import ShiftReduce.Proofs.Table.Distinct

namespace ShiftReduce

/-!
# Answers written down

A table need not hold what it answers in cells: it may as well compute it.  `Rulings` are
such answers, which depend on nothing but the state, up to equality, and on the label that
is looked up.  There may be infinitely many states, and so no cells for all of them.

But a run consults its look-ups at finitely many points, and what is answered there can be
written down as the cells of a table (`Rulings.tabulate`).  With this table the run is the
same (`Run.drive_tabulated`), so what holds of the runs with every table also holds of those
that go by any rulings.
-/

namespace Value

/-- What equal constants have in common is a constant, and has itself in common. -/
theorem canonical_settled
    {value : Value}
    (constant : value.isConstant = true) :
    value.canonical.isConstant = true ∧
      value.canonical.canonical = value.canonical := by
  induction value, constant using constant_induction with
  | tuple items constant inductionHypothesis =>
      have each :
          areConstants (canonicalAll items) = true ∧
            canonicalAll (canonicalAll items) = canonicalAll items := by
        clear constant
        induction items with
        | nil => exact ⟨rfl, rfl⟩
        | cons item rest restHypothesis =>
            have first := inductionHypothesis item List.mem_cons_self
            have others :=
              restHypothesis fun other member =>
                inductionHypothesis other (List.mem_cons_of_mem item member)
            simp only [canonicalAll, areConstants, first, others, Bool.and_self,
              and_self]
      exact ⟨each.1, congrArg Value.tuple each.2⟩
  | _ => exact ⟨rfl, rfl⟩

end Value

namespace Store

variable
  {store : Store}
  {value : Value}

/-- A key is a constant of every store, and it is its own key there. -/
theorem key_settled
    (constant : store.IsConstant value)
    (other : Store) :
    other.IsConstant (store.key value) ∧
      other.key (store.key value) = store.key value := by
  obtain ⟨isConstant, same⟩ := Value.canonical_settled (reading_isConstant constant)
  refine ⟨other.isConstant_of_constant isConstant, ?_⟩
  rw [key, key, other.reading_constant isConstant, same]

end Store

/-- Whether a point asks about a constant state, and for a label. -/
def Lookups.Point.IsFiled :
    Lookups.Point → Prop
  | .action store state kind => store.IsConstant state ∧ kind.isLabel = true
  | .goto store state head => store.IsConstant state ∧ head.isLabel = true
  | .diagnosis .. => True

/--
Answers that are always there and the same: actions and gotos by the key of a state and a
label, and expected kinds by the key of a state.
-/
structure Rulings where
  action : Value → Value → Value
  goto : Value → Value → Value
  expected : Value → List Value

namespace Rulings

/-- Look-ups that are answered by rulings. -/
def lookups
    (rulings : Rulings) :
    Lookups where
  action store state kind := .ok (rulings.action (store.key state) kind)
  goto store state head := .ok (rulings.goto (store.key state) head)
  diagnose store state := .ok (rulings.expected (store.key state))

/-- The key and the kind for which an action is looked up at a point. -/
def actionKey? :
    Lookups.Point → Option (Value × Value)
  | .action store state kind => some (store.key state, kind)
  | _ => none

/-- The key and the head for which a goto is looked up at a point. -/
def gotoKey? :
    Lookups.Point → Option (Value × Value)
  | .goto store state head => some (store.key state, head)
  | _ => none

/-- The key of the state that is diagnosed at a point. -/
def diagnosisKey? :
    Lookups.Point → Option Value
  | .diagnosis store state => some (store.key state)
  | _ => none

/-- The cell with the answer for a key and a label. -/
def cell
    (answer : Value → Value → Value)
    (filedAs : Value × Value) :
    Cell :=
  ⟨filedAs.1, filedAs.2, answer filedAs.1 filedAs.2⟩

/-- The table that holds the answers at several points, of which one may be a diagnosis. -/
def tabulate
    (rulings : Rulings)
    (identity : Nat)
    (initial : Value)
    (points : List Lookups.Point) :
    Table where
  identity := identity
  actions := (points.filterMap actionKey?).map (cell rulings.action)
  gotos := (points.filterMap gotoKey?).map (cell rulings.goto)
  initial := initial
  diagnosis :=
    .fixed (.list ((points.findSome? diagnosisKey?).elim [] rulings.expected))

/-- What a state and a label are filed as: a key, which is its own key, and the label. -/
structure Settles
    (store : Store)
    (filedAs : Value × Value) :
    Prop where
  constant : store.IsConstant filedAs.1
  own : store.key filedAs.1 = filedAs.1
  labels : filedAs.2.isLabel = true

section Written

variable
  {store : Store}
  {state label : Value}
  {keys : List (Value × Value)}
  (answer : Value → Value → Value)
  (settle : ∀ filedAs ∈ keys, Settles store filedAs)
  (constant : store.IsConstant state)
  (labels : label.isLabel = true)

include settle constant labels

/-- What is written down for the key of a constant state and a label is found there. -/
theorem find?_written
    (written : (store.key state, label) ∈ keys) :
    Cell.find? store (keys.map (cell answer)) state label =
      .ok (some (answer (store.key state) label)) := by
  have labelled : ∀ filedAs ∈ keys, (cell answer filedAs).Labelled store :=
    fun filedAs member =>
      ⟨(settle filedAs member).constant, (settle filedAs member).labels⟩
  have sought :
      ∀ filedAs ∈ keys,
        (Cell.isFor store state label (cell answer filedAs) = true ↔
          filedAs = (store.key state, label)) := by
    intro filedAs member
    rw [(labelled filedAs member).isFor_iff constant labels, Cell.key]
    change (store.key filedAs.1, filedAs.2) = _ ↔ _
    rw [(settle filedAs member).own]
  have present :
      (keys.find? fun filedAs =>
        Cell.isFor store state label (cell answer filedAs)).isSome = true :=
    List.find?_isSome.mpr ⟨_, written, (sought _ written).mpr rfl⟩
  obtain ⟨filedAs, found⟩ := Option.isSome_iff_exists.mp present
  have isFor := List.find?_some found
  have same := (sought filedAs (List.mem_of_find?_eq_some found)).mp isFor
  have first :
      (keys.map (cell answer)).find? (Cell.isFor store state label) =
        some (cell answer filedAs) := by
    rw [List.find?_map]
    exact congrArg (Option.map (cell answer)) found
  rw [Cell.find?_of_labelled (List.forall_mem_map.mpr labelled) constant labels, first,
    same]
  rfl

end Written

section Points

variable
  {points : List Lookups.Point}
  {store : Store}
  {state : Value}
  (filed : ∀ point ∈ points, point.IsFiled)

include filed

theorem settles_of_actionKey
    (store : Store) :
    ∀ filedAs ∈ points.filterMap actionKey?, Settles store filedAs := by
  intro filedAs member
  obtain ⟨point, asked, keyed⟩ := List.mem_filterMap.mp member
  have isFiled := filed point asked
  cases point with
  | action other state kind =>
      cases keyed
      have settled := Store.key_settled isFiled.1 store
      exact ⟨settled.1, settled.2, isFiled.2⟩
  | goto | diagnosis => cases keyed

theorem settles_of_gotoKey
    (store : Store) :
    ∀ filedAs ∈ points.filterMap gotoKey?, Settles store filedAs := by
  intro filedAs member
  obtain ⟨point, asked, keyed⟩ := List.mem_filterMap.mp member
  have isFiled := filed point asked
  cases point with
  | goto other state head =>
      cases keyed
      have settled := Store.key_settled isFiled.1 store
      exact ⟨settled.1, settled.2, isFiled.2⟩
  | action | diagnosis => cases keyed

/-- A table that holds the answers at several points agrees with the rulings there. -/
theorem agreeAt_tabulate
    (once :
      ∀ {store other state otherState},
        .diagnosis store state ∈ points → .diagnosis other otherState ∈ points →
          store.key state = other.key otherState)
    (rulings : Rulings)
    (identity : Nat)
    (initial : Value) :
    ∀ point ∈ points,
      rulings.lookups.AgreeAt (rulings.tabulate identity initial points).lookups point := by
  intro point asked
  have isFiled := filed point asked
  cases point with
  | action store state kind =>
      have found :=
        find?_written rulings.action (settles_of_actionKey filed store) isFiled.1 isFiled.2
          (List.mem_filterMap.mpr ⟨_, asked, rfl⟩)
      change Table.action store _ state kind = _
      rw [Table.action]
      change (Cell.find? store (List.map _ _) state kind >>= _) = _
      rw [found]
      rfl
  | goto store state head =>
      have found :=
        find?_written rulings.goto (settles_of_gotoKey filed store) isFiled.1 isFiled.2
          (List.mem_filterMap.mpr ⟨_, asked, rfl⟩)
      change Table.goto store _ state head = _
      rw [Table.goto]
      change (Cell.find? store (List.map _ _) state head >>= _) = _
      rw [found]
      rfl
  | diagnosis store state =>
      have first : points.findSome? diagnosisKey? = some (store.key state) := by
        cases found : points.findSome? diagnosisKey? with
        | none => cases List.findSome?_eq_none_iff.mp found _ asked
        | some key =>
            obtain ⟨point, pointAsked, keyed⟩ := List.exists_of_findSome?_eq_some found
            cases point with
            | diagnosis other otherState =>
                cases keyed
                rw [once asked pointAsked]
            | action | goto => cases keyed
      change
        Except.ok ((points.findSome? diagnosisKey?).elim [] rulings.expected) =
          Except.ok (rulings.expected (store.key state))
      rw [first]
      rfl

end Points

end Rulings

namespace Run

variable {ω : Type}

/--
A run that goes by rulings is the run with a table that holds what is answered there, as long
as it asks about constant states.
-/
theorem drive_tabulated
    (deliver : Deliver ω)
    (rulings : Rulings)
    (identity : Nat)
    (initial : Value)
    (granted : Nat)
    (frame : Frame ω)
    (filed : ∀ point ∈ points deliver rulings.lookups granted frame, point.IsFiled) :
    drive deliver
        (.table
          (rulings.tabulate identity initial
            (points deliver rulings.lookups granted frame)))
        granted frame =
      driveBy deliver rulings.lookups granted frame := by
  rw [drive_eq_driveBy]
  refine driveBy_congr (rulings.agreeAt_tabulate filed ?_ identity initial)
  intro store other state otherState asked askedToo
  obtain ⟨rfl, rfl⟩ := diagnosis_unique asked askedToo
  rfl

end Run

end ShiftReduce
