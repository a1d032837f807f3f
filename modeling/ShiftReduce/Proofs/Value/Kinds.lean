import ShiftReduce.Proofs.Value.Reading

namespace ShiftReduce

/-!
# Kinds that clash

Shifts and reductions are compared by what they carry, and their kinds do not matter.  But
they are filed with their kinds, and a derived class may set a kind of its own.  So kinds
clash where two values have shifts, or reductions, of different kinds in the same position
(`Value.KindsClash`).  As long as derived classes set no kinds, nothing clashes
(`Value.KindsClash.not_inherited`).
-/

/-- Whether a class has the kind of the class that it is or is derived from. -/
def Lineage.inheritsKind :
    Lineage → Bool
  | .direct => true
  | .derived derivedClass => derivedClass.ownKind.isNone

theorem Lineage.kind_of_inheritsKind
    {lineage : Lineage}
    (inherits : lineage.inheritsKind = true)
    (inherited : String) :
    lineage.kind inherited = inherited := by
  cases lineage with
  | direct => rfl
  | derived derivedClass =>
      rcases derivedClass with ⟨identity, name, ownKind⟩
      cases ownKind with
      | none => rfl
      | some kind => cases inherits

mutual

/--
Somewhere in the same position of two values there are two shifts or two reductions of
different kinds.  Only positions count by which the values are filed.  The parameter says
what is looked at instead of two values of which one is a mention.
-/
inductive Value.KindsClash
    (through : Value → Value → Value → Value → Prop) :
    Value → Value → Prop where
  | shifts
      {lineage otherLineage : Lineage}
      {next otherNext : Value}
      (different :
        (Action.shift lineage next).kind ≠ (Action.shift otherLineage otherNext).kind) :
      KindsClash through
        (.action (.shift lineage next)) (.action (.shift otherLineage otherNext))
  | reductions
      {lineage otherLineage : Lineage}
      {rule otherRule : Value}
      (different :
        (Action.reduce lineage rule).kind ≠ (Action.reduce otherLineage otherRule).kind) :
      KindsClash through
        (.action (.reduce lineage rule)) (.action (.reduce otherLineage otherRule))
  | next
      {lineage otherLineage : Lineage}
      {next otherNext : Value}
      (states : Value.KindsClash through next otherNext) :
      KindsClash through
        (.action (.shift lineage next)) (.action (.shift otherLineage otherNext))
  | rule
      {lineage otherLineage : Lineage}
      {rule otherRule : Value}
      (rules : Value.KindsClash through rule otherRule) :
      KindsClash through
        (.action (.reduce lineage rule)) (.action (.reduce otherLineage otherRule))
  | head
      {identity otherIdentity : Option Nat}
      {head otherHead index otherIndex : Value}
      {body otherBody : List Value}
      (heads : Value.KindsClash through head otherHead) :
      KindsClash through
        (.production ⟨identity, head, body, index⟩)
        (.production ⟨otherIdentity, otherHead, otherBody, otherIndex⟩)
  | body
      {identity otherIdentity : Option Nat}
      {head otherHead index otherIndex : Value}
      {body otherBody : List Value}
      (bodies : Value.KindsClashSomewhere through body otherBody) :
      KindsClash through
        (.production ⟨identity, head, body, index⟩)
        (.production ⟨otherIdentity, otherHead, otherBody, otherIndex⟩)
  | tuple
      {items otherItems : List Value}
      (members : Value.KindsClashSomewhere through items otherItems) :
      KindsClash through (.tuple items) (.tuple otherItems)
  | looked
      {first second seen otherSeen : Value}
      (looks : through first second seen otherSeen)
      (clash : Value.KindsClash through seen otherSeen) :
      KindsClash through first second

/-- The kinds of some member of a list clash with those in the same position of another. -/
inductive Value.KindsClashSomewhere
    (through : Value → Value → Value → Value → Prop) :
    List Value → List Value → Prop where
  | here
      {first second : Value}
      {rest otherRest : List Value}
      (clash : Value.KindsClash through first second) :
      KindsClashSomewhere through (first :: rest) (second :: otherRest)
  | later
      {first second : Value}
      {rest otherRest : List Value}
      (clash : Value.KindsClashSomewhere through rest otherRest) :
      KindsClashSomewhere through (first :: rest) (second :: otherRest)

end

/-- The kinds of two values clash, with mentions taken for what they are. -/
abbrev Value.ClashInKind :
    Value → Value → Prop :=
  Value.KindsClash fun _ _ _ _ => False

/-- Only where there is a mention, something else is looked at. -/
def LooksAtMentions
    (through : Value → Value → Value → Value → Prop) :
    Prop :=
  ∀ first second seen otherSeen,
    through first second seen otherSeen →
      first.isMention = true ∨ second.isMention = true

/-- Whether the kinds of a value may clash with those of another without looking elsewhere. -/
def Value.bearsKinds :
    Value → Bool
  | .tuple _ => true
  | .production _ => true
  | .action (.shift ..) => true
  | .action (.reduce ..) => true
  | _ => false

namespace Value

variable
  {through : Value → Value → Value → Value → Prop}
  {first second : Value}

theorem not_bearsKinds_of_isMention
    (mention : first.isMention = true) :
    first.bearsKinds = false := by
  cases first with
  | shared => rfl
  | _ => cases mention

/-- Where something is looked at and the values bear no kinds, the clash is found there. -/
theorem KindsClash.looked_of_not_bearsKinds
    (clash : first.KindsClash through second)
    (bare : first.bearsKinds = false ∨ second.bearsKinds = false) :
    ∃ seen otherSeen,
      through first second seen otherSeen ∧ seen.KindsClash through otherSeen := by
  cases clash with
  | looked looks clash => exact ⟨_, _, looks, clash⟩
  | _ => rcases bare with bare | bare <;> cases bare

/-- What is no mention and bears no kinds clashes with nothing but mentions. -/
theorem not_kindsClash
    (atMentions : LooksAtMentions through)
    (bare : first.bearsKinds = false)
    (held : first.isMention = false)
    (otherHeld : second.isMention = false) :
    ¬ first.KindsClash through second := by
  intro clash
  obtain ⟨seen, otherSeen, looks, _⟩ := clash.looked_of_not_bearsKinds (.inl bare)
  rcases atMentions _ _ _ _ looks with mention | mention
  · rw [held] at mention
    cases mention
  · rw [otherHeld] at mention
    cases mention

theorem kindsClash_tuple
    (atMentions : LooksAtMentions through)
    {items otherItems : List Value} :
    KindsClash through (.tuple items) (.tuple otherItems) ↔
      KindsClashSomewhere through items otherItems := by
  constructor
  · intro clash
    cases clash with
    | tuple members => exact members
    | looked looks => rcases atMentions _ _ _ _ looks with held | held <;> cases held
  · exact .tuple

theorem kindsClash_production
    (atMentions : LooksAtMentions through)
    {identity otherIdentity : Option Nat}
    {head otherHead index otherIndex : Value}
    {body otherBody : List Value} :
    KindsClash through
        (.production ⟨identity, head, body, index⟩)
        (.production ⟨otherIdentity, otherHead, otherBody, otherIndex⟩) ↔
      head.KindsClash through otherHead ∨
        KindsClashSomewhere through body otherBody := by
  constructor
  · intro clash
    cases clash with
    | head heads => exact .inl heads
    | body bodies => exact .inr bodies
    | looked looks => rcases atMentions _ _ _ _ looks with held | held <;> cases held
  · rintro (heads | bodies)
    · exact .head heads
    · exact .body bodies

theorem kindsClash_shift
    (atMentions : LooksAtMentions through)
    {lineage otherLineage : Lineage}
    {next otherNext : Value} :
    KindsClash through
        (.action (.shift lineage next)) (.action (.shift otherLineage otherNext)) ↔
      (Action.shift lineage next).kind ≠ (Action.shift otherLineage otherNext).kind ∨
        next.KindsClash through otherNext := by
  constructor
  · intro clash
    cases clash with
    | shifts different => exact .inl different
    | next states => exact .inr states
    | looked looks => rcases atMentions _ _ _ _ looks with held | held <;> cases held
  · rintro (different | states)
    · exact .shifts different
    · exact .next states

theorem kindsClash_reduce
    (atMentions : LooksAtMentions through)
    {lineage otherLineage : Lineage}
    {rule otherRule : Value} :
    KindsClash through
        (.action (.reduce lineage rule)) (.action (.reduce otherLineage otherRule)) ↔
      (Action.reduce lineage rule).kind ≠ (Action.reduce otherLineage otherRule).kind ∨
        rule.KindsClash through otherRule := by
  constructor
  · intro clash
    cases clash with
    | reductions different => exact .inl different
    | rule rules => exact .inr rules
    | looked looks => rcases atMentions _ _ _ _ looks with held | held <;> cases held
  · rintro (different | rules)
    · exact .reductions different
    · exact .rule rules

theorem kindsClashSomewhere_nil :
    ¬ KindsClashSomewhere through [] [] := nofun

theorem kindsClashSomewhere_cons
    {rest otherRest : List Value} :
    KindsClashSomewhere through (first :: rest) (second :: otherRest) ↔
      first.KindsClash through second ∨ KindsClashSomewhere through rest otherRest := by
  constructor
  · rintro (clash | clash)
    · exact .inl clash
    · exact .inr clash
  · rintro (clash | clash)
    · exact .here clash
    · exact .later clash

mutual

/-- Whether the derived classes in a value set no kinds, as far as it is filed by them. -/
def inheritsKinds :
    Value → Bool
  | .tuple items => inheritKinds items
  | .production ⟨_, head, body, _⟩ => head.inheritsKinds && inheritKinds body
  | .action (.shift lineage next) => lineage.inheritsKind && next.inheritsKinds
  | .action (.reduce lineage rule) => lineage.inheritsKind && rule.inheritsKinds
  | _ => true
termination_by structural value => value

/-- Whether the derived classes in several values set no kinds. -/
def inheritKinds :
    List Value → Bool
  | [] => true
  | value :: rest => value.inheritsKinds && inheritKinds rest
termination_by structural values => values

end

mutual

/-- Where derived classes set no kinds, kinds do not clash. -/
theorem KindsClash.not_inherited
    (seenInherits :
      ∀ first second seen otherSeen,
        through first second seen otherSeen →
          seen.inheritsKinds = true ∧ otherSeen.inheritsKinds = true) :
    ∀ {first second : Value},
      first.KindsClash through second →
        first.inheritsKinds = true → second.inheritsKinds = true → False
  | _, _, .shifts different, inherits, otherInherits => by
      have own := Lineage.kind_of_inheritsKind (Bool.and_eq_true_iff.mp inherits).1
      have other := Lineage.kind_of_inheritsKind (Bool.and_eq_true_iff.mp otherInherits).1
      exact different ((own _).trans (other _).symm)
  | _, _, .reductions different, inherits, otherInherits => by
      have own := Lineage.kind_of_inheritsKind (Bool.and_eq_true_iff.mp inherits).1
      have other := Lineage.kind_of_inheritsKind (Bool.and_eq_true_iff.mp otherInherits).1
      exact different ((own _).trans (other _).symm)
  | _, _, .next states, inherits, otherInherits =>
      KindsClash.not_inherited seenInherits states
        (Bool.and_eq_true_iff.mp inherits).2 (Bool.and_eq_true_iff.mp otherInherits).2
  | _, _, .rule rules, inherits, otherInherits =>
      KindsClash.not_inherited seenInherits rules
        (Bool.and_eq_true_iff.mp inherits).2 (Bool.and_eq_true_iff.mp otherInherits).2
  | _, _, .head heads, inherits, otherInherits =>
      KindsClash.not_inherited seenInherits heads
        (Bool.and_eq_true_iff.mp inherits).1 (Bool.and_eq_true_iff.mp otherInherits).1
  | _, _, .body bodies, inherits, otherInherits =>
      KindsClashSomewhere.not_inherited seenInherits bodies
        (Bool.and_eq_true_iff.mp inherits).2 (Bool.and_eq_true_iff.mp otherInherits).2
  | _, _, .tuple members, inherits, otherInherits =>
      KindsClashSomewhere.not_inherited seenInherits members inherits otherInherits
  | _, _, .looked looks clash, _, _ =>
      have seen := seenInherits _ _ _ _ looks
      KindsClash.not_inherited seenInherits clash seen.1 seen.2

theorem KindsClashSomewhere.not_inherited
    (seenInherits :
      ∀ first second seen otherSeen,
        through first second seen otherSeen →
          seen.inheritsKinds = true ∧ otherSeen.inheritsKinds = true) :
    ∀ {items otherItems : List Value},
      KindsClashSomewhere through items otherItems →
        inheritKinds items = true → inheritKinds otherItems = true → False
  | _, _, .here clash, inherits, otherInherits =>
      KindsClash.not_inherited seenInherits clash
        (Bool.and_eq_true_iff.mp inherits).1 (Bool.and_eq_true_iff.mp otherInherits).1
  | _, _, .later clash, inherits, otherInherits =>
      KindsClashSomewhere.not_inherited seenInherits clash
        (Bool.and_eq_true_iff.mp inherits).2 (Bool.and_eq_true_iff.mp otherInherits).2

end

theorem not_clashInKind_of_inheritsKinds
    (inherits : first.inheritsKinds = true)
    (otherInherits : second.inheritsKinds = true) :
    ¬ first.ClashInKind second :=
  fun clash => clash.not_inherited nofun inherits otherInherits

end Value

namespace Store

variable {store : Store}

/-- What a comparison looks at as things stand: what lies at places, unless it is the same. -/
structure Looks
    (store : Store)
    (first second seen otherSeen : Value) :
    Prop where
  apart : first.samePlace second = false
  mention : first.isMention = true ∨ second.isMention = true
  seen : seen = store.lookAt first
  otherSeen : otherSeen = store.lookAt second

theorem looks_atMentions :
    LooksAtMentions store.Looks :=
  fun _ _ _ _ looks => looks.mention

/-- The kinds of two values clash as things stand. -/
abbrev ClashInKind
    (store : Store) :
    Value → Value → Prop :=
  Value.KindsClash store.Looks

/-- One container that is mentioned twice does not clash with itself. -/
theorem not_clashInKind_of_samePlace
    {first second : Value}
    (samePlace : first.samePlace second = true) :
    ¬ store.ClashInKind first second := by
  intro clash
  have mention := (samePlace_iff.mp samePlace).1
  obtain ⟨_, _, looks, _⟩ :=
    clash.looked_of_not_bearsKinds (.inl (Value.not_bearsKinds_of_isMention mention))
  rw [looks.apart] at samePlace
  cases samePlace

/-- Where there is a mention, kinds clash if they do in what is looked at. -/
theorem clashInKind_lookAt
    {first second : Value}
    (apart : first.samePlace second = false)
    (mention : first.isMention = true ∨ second.isMention = true) :
    store.ClashInKind first second ↔
      store.ClashInKind (store.lookAt first) (store.lookAt second) := by
  constructor
  · intro clash
    have bare :=
      mention.imp Value.not_bearsKinds_of_isMention Value.not_bearsKinds_of_isMention
    obtain ⟨_, _, looks, clash⟩ := clash.looked_of_not_bearsKinds bare
    rwa [looks.seen, looks.otherSeen] at clash
  · exact .looked ⟨apart, mention, rfl, rfl⟩

end Store

end ShiftReduce
