import ShiftReduce.Proofs.Value.Filing

namespace ShiftReduce

/-!
# How far equality is an equivalence

Every value without dictionaries and mentions equals itself, and equality goes both ways.
It is not transitive: two rules of derived classes may equal the same rule of the class
itself and differ from each other (`Value.equality_not_transitive`).

Nothing else stands in the way.  Two values that equal the same third one are equal unless
they clash, that is, unless somewhere in the same position both have rules of derived
classes, and not the same (`Value.equality_up_to_clashes`).  So a dictionary finds what it
finds whichever of two equal keys was put there, as long as the key that is looked for
clashes with neither, and the kinds of the two do not clash: else they are filed apart.
-/

mutual

/-- Whether a value holds no dictionary and mentions nothing where it is compared. -/
def Value.isSolid :
    Value → Bool
  | .list items => Value.areSolid items
  | .tuple items => Value.areSolid items
  | .dict _ => false
  | .shared .. => false
  | .token carried => carried.isSolid
  | .symbol (.token wrapped) => wrapped.isSolid
  | .production ⟨_, head, body, _⟩ => head.isSolid && Value.areSolid body
  | .action (.shift _ next) => next.isSolid
  | .action (.reduce _ rule) => rule.isSolid
  | _ => true
termination_by structural value => value

/-- Whether all of several values are solid. -/
def Value.areSolid :
    List Value → Bool
  | [] => true
  | value :: rest => value.isSolid && Value.areSolid rest
termination_by structural values => values

/-- Whether the payload of a token is solid. -/
def Token.isSolid :
    Token → Bool
  | ⟨_, _, value⟩ => value.isSolid
termination_by structural token => token

end

/-- Two values that are made alike, with nothing left to a comparison. -/
abbrev Value.WhollyAlike :
    Value → Value → Prop :=
  Value.Alike fun _ _ => False

/-- Two lists of values that are wholly alike one by one. -/
abbrev Value.WhollyAlikeAll :
    List Value → List Value → Prop :=
  Value.AlikeAll fun _ _ => False

mutual

/--
Somewhere in the same position of two values there are rules of derived classes, and not
the same.
-/
inductive Value.Clashes :
    Value → Value → Prop where
  | rules
      {identity otherIdentity : Nat}
      {head otherHead index otherIndex : Value}
      {body otherBody : List Value}
      (different : identity ≠ otherIdentity) :
      Clashes
        (.production ⟨some identity, head, body, index⟩)
        (.production ⟨some otherIdentity, otherHead, otherBody, otherIndex⟩)
  | head
      {identity otherIdentity : Option Nat}
      {head otherHead index otherIndex : Value}
      {body otherBody : List Value}
      (heads : Value.Clashes head otherHead) :
      Clashes
        (.production ⟨identity, head, body, index⟩)
        (.production ⟨otherIdentity, otherHead, otherBody, otherIndex⟩)
  | body
      {identity otherIdentity : Option Nat}
      {head otherHead index otherIndex : Value}
      {body otherBody : List Value}
      (bodies : Value.ClashSomewhere body otherBody) :
      Clashes
        (.production ⟨identity, head, body, index⟩)
        (.production ⟨otherIdentity, otherHead, otherBody, otherIndex⟩)
  | list
      {items otherItems : List Value}
      (members : Value.ClashSomewhere items otherItems) :
      Clashes (.list items) (.list otherItems)
  | tuple
      {items otherItems : List Value}
      (members : Value.ClashSomewhere items otherItems) :
      Clashes (.tuple items) (.tuple otherItems)
  | token
      {tokenClass otherClass : TokenClass}
      {kind otherKind : String}
      {value other : Value}
      (payloads : Value.Clashes value other) :
      Clashes
        (.token ⟨tokenClass, kind, value⟩) (.token ⟨otherClass, otherKind, other⟩)
  | tokenSymbol
      {tokenClass otherClass : TokenClass}
      {kind otherKind : String}
      {value other : Value}
      (payloads : Value.Clashes value other) :
      Clashes
        (.symbol (.token ⟨tokenClass, kind, value⟩))
        (.symbol (.token ⟨otherClass, otherKind, other⟩))
  | shift
      {lineage otherLineage : Lineage}
      {next otherNext : Value}
      (states : Value.Clashes next otherNext) :
      Clashes
        (.action (.shift lineage next)) (.action (.shift otherLineage otherNext))
  | reduce
      {lineage otherLineage : Lineage}
      {rule otherRule : Value}
      (rules : Value.Clashes rule otherRule) :
      Clashes
        (.action (.reduce lineage rule)) (.action (.reduce otherLineage otherRule))

/-- Some member of a list clashes with the one in the same position of another. -/
inductive Value.ClashSomewhere :
    List Value → List Value → Prop where
  | here
      {first second : Value}
      {rest otherRest : List Value}
      (clash : Value.Clashes first second) :
      ClashSomewhere (first :: rest) (second :: otherRest)
  | later
      {first second : Value}
      {rest otherRest : List Value}
      (clash : Value.ClashSomewhere rest otherRest) :
      ClashSomewhere (first :: rest) (second :: otherRest)

end

namespace Value

mutual

/-- A solid value is wholly alike to itself. -/
theorem WhollyAlike.refl :
    ∀ {value : Value}, value.isSolid = true → value.WhollyAlike value
  | .none, _ => .none
  | .bool _, _ => .number rfl rfl
  | .int _, _ => .number rfl rfl
  | .text content, _ => .text content
  | .list _, solid => .list (WhollyAlikeAll.refl solid)
  | .tuple _, solid => .tuple (WhollyAlikeAll.refl solid)
  | .token ⟨_, _, _⟩, solid => .token (WhollyAlike.refl solid)
  | .nonterminal carried, _ => .nonterminal carried
  | .symbol (.token ⟨_, _, _⟩), solid => .tokenSymbol (WhollyAlike.refl solid)
  | .symbol (.nonterminal wrapped), _ => .nonterminalSymbol wrapped
  | .symbol (.bare identity), _ => .bareSymbol identity
  | .production ⟨identity, _, _, _⟩, solid => by
      have parts := Bool.and_eq_true_iff.mp solid
      have itself : identitiesAgree identity identity = true := by
        cases identity with
        | none => rfl
        | some identity => exact beq_self_eq_true identity
      exact
        .production itself (WhollyAlike.refl parts.1) (WhollyAlikeAll.refl parts.2)
  | .action (.shift _ _), solid => .shift (WhollyAlike.refl solid)
  | .action (.reduce _ _), solid => .reduce (WhollyAlike.refl solid)
  | .action (.accept lineage), _ => .accept lineage
  | .action (.error lineage), _ => .error lineage
  | .action (.unknown lineage), _ => .unknown lineage
  | .table _, _ => .table rfl

theorem WhollyAlikeAll.refl :
    ∀ {values : List Value}, areSolid values = true → WhollyAlikeAll values values
  | [], _ => .nil
  | _ :: _, solid => by
      have parts := Bool.and_eq_true_iff.mp solid
      exact .cons (WhollyAlike.refl parts.1) (WhollyAlikeAll.refl parts.2)

end

theorem identitiesAgree_symm
    {identity other : Option Nat}
    (agree : identitiesAgree identity other = true) :
    identitiesAgree other identity = true := by
  cases identity with
  | none => cases other <;> rfl
  | some identity =>
      cases other with
      | none => rfl
      | some other => exact beq_iff_eq.mpr (beq_iff_eq.mp agree).symm

mutual

/-- Every rule by which values are alike can be read both ways. -/
theorem WhollyAlike.symm :
    ∀ {first second : Value},
      first.WhollyAlike second → second.WhollyAlike first
  | _, _, .other absurd => absurd.elim
  | _, _, .none => .none
  | _, _, .number firstStands secondStands => .number secondStands firstStands
  | _, _, .text content => .text content
  | _, _, .list members => .list (WhollyAlikeAll.symm members)
  | _, _, .tuple members => .tuple (WhollyAlikeAll.symm members)
  | _, _, .token payloads => .token (WhollyAlike.symm payloads)
  | _, _, .nonterminal carried => .nonterminal carried
  | _, _, .tokenSymbol payloads => .tokenSymbol (WhollyAlike.symm payloads)
  | _, _, .nonterminalSymbol wrapped => .nonterminalSymbol wrapped
  | _, _, .bareSymbol identity => .bareSymbol identity
  | _, _, .production identities heads bodies =>
      .production (identitiesAgree_symm identities) (WhollyAlike.symm heads)
        (WhollyAlikeAll.symm bodies)
  | _, _, .shift states => .shift (WhollyAlike.symm states)
  | _, _, .reduce rules => .reduce (WhollyAlike.symm rules)
  | _, _, .accept lineage => .accept lineage
  | _, _, .error lineage => .error lineage
  | _, _, .unknown lineage => .unknown lineage
  | _, _, .table identities => .table identities.symm

theorem WhollyAlikeAll.symm :
    ∀ {items others : List Value},
      WhollyAlikeAll items others → WhollyAlikeAll others items
  | _, _, .nil => .nil
  | _, _, .cons here later =>
      .cons (WhollyAlike.symm here) (WhollyAlikeAll.symm later)

end

/-- Identities that agree with a third agree, or both are there and differ. -/
theorem identitiesAgree_or
    {first second third : Option Nat}
    (agree : identitiesAgree first second = true)
    (otherAgree : identitiesAgree second third = true) :
    identitiesAgree first third = true ∨
      ∃ identity other,
        first = some identity ∧ third = some other ∧ identity ≠ other := by
  cases first with
  | none => exact .inl rfl
  | some identity =>
      cases third with
      | none => exact .inl rfl
      | some other =>
          by_cases same : identity = other
          · exact .inl (beq_iff_eq.mpr same)
          · exact .inr ⟨identity, other, rfl, rfl, same⟩

mutual

/-- Values that are alike to the same third one are alike, or they clash. -/
theorem WhollyAlike.trans_or_clash :
    ∀ {first second third : Value},
      first.WhollyAlike second →
        second.WhollyAlike third →
          first.WhollyAlike third ∨ first.Clashes third
  | _, _, _, .other absurd, _ => absurd.elim
  | _, _, _, .none, onward => .inl onward
  | _, _, _, .number firstStands secondStands, onward => by
      cases onward with
      | other absurd => exact absurd.elim
      | number stands thirdStands =>
          rw [secondStands] at stands
          cases stands
          exact .inl (.number firstStands thirdStands)
      | _ => cases secondStands
  | _, _, _, .text _, onward => .inl onward
  | _, _, _, .list members, onward => by
      cases onward with
      | other absurd => exact absurd.elim
      | number stands => cases stands
      | list others =>
          rcases WhollyAlikeAll.trans_or_clash members others with alike | clash
          · exact .inl (.list alike)
          · exact .inr (.list clash)
  | _, _, _, .tuple members, onward => by
      cases onward with
      | other absurd => exact absurd.elim
      | number stands => cases stands
      | tuple others =>
          rcases WhollyAlikeAll.trans_or_clash members others with alike | clash
          · exact .inl (.tuple alike)
          · exact .inr (.tuple clash)
  | _, _, _, .token payloads, onward => by
      cases onward with
      | other absurd => exact absurd.elim
      | number stands => cases stands
      | token others =>
          rcases WhollyAlike.trans_or_clash payloads others with alike | clash
          · exact .inl (.token alike)
          · exact .inr (.token clash)
  | _, _, _, .nonterminal _, onward => .inl onward
  | _, _, _, .tokenSymbol payloads, onward => by
      cases onward with
      | other absurd => exact absurd.elim
      | number stands => cases stands
      | tokenSymbol others =>
          rcases WhollyAlike.trans_or_clash payloads others with alike | clash
          · exact .inl (.tokenSymbol alike)
          · exact .inr (.tokenSymbol clash)
  | _, _, _, .nonterminalSymbol _, onward => .inl onward
  | _, _, _, .bareSymbol _, onward => .inl onward
  | _, _, _, .production identities heads bodies, onward => by
      cases onward with
      | other absurd => exact absurd.elim
      | number stands => cases stands
      | production otherIdentities otherHeads otherBodies =>
          rcases identitiesAgree_or identities otherIdentities with
            agree | ⟨identity, other, rfl, rfl, different⟩
          · rcases WhollyAlike.trans_or_clash heads otherHeads with
              headsAlike | clash
            · rcases WhollyAlikeAll.trans_or_clash bodies otherBodies with
                bodiesAlike | clash
              · exact .inl (.production agree headsAlike bodiesAlike)
              · exact .inr (.body clash)
            · exact .inr (.head clash)
          · exact .inr (.rules different)
  | _, _, _, .shift states, onward => by
      cases onward with
      | other absurd => exact absurd.elim
      | number stands => cases stands
      | shift others =>
          rcases WhollyAlike.trans_or_clash states others with alike | clash
          · exact .inl (.shift alike)
          · exact .inr (.shift clash)
  | _, _, _, .reduce rules, onward => by
      cases onward with
      | other absurd => exact absurd.elim
      | number stands => cases stands
      | reduce others =>
          rcases WhollyAlike.trans_or_clash rules others with alike | clash
          · exact .inl (.reduce alike)
          · exact .inr (.reduce clash)
  | _, _, _, .accept _, onward => .inl onward
  | _, _, _, .error _, onward => .inl onward
  | _, _, _, .unknown _, onward => .inl onward
  | _, _, _, .table identities, onward => by
      cases onward with
      | other absurd => exact absurd.elim
      | number stands => cases stands
      | table others => exact .inl (.table (identities.trans others))

theorem WhollyAlikeAll.trans_or_clash :
    ∀ {first second third : List Value},
      WhollyAlikeAll first second →
        WhollyAlikeAll second third →
          WhollyAlikeAll first third ∨ ClashSomewhere first third
  | _, _, _, .nil, .nil => .inl .nil
  | _, _, _, .cons here later, .cons otherHere otherLater => by
      rcases WhollyAlike.trans_or_clash here otherHere with alike | clash
      · rcases WhollyAlikeAll.trans_or_clash later otherLater with
          restAlike | clash
        · exact .inl (.cons alike restAlike)
        · exact .inr (.later clash)
      · exact .inr (.here clash)

end

mutual

/-- Values that clash are not alike. -/
theorem Clashes.not_alike :
    ∀ {first second : Value},
      first.Clashes second → ¬ first.WhollyAlike second
  | _, _, .rules different, alike => by
      cases alike with
      | other absurd => exact absurd
      | number stands => cases stands
      | production identities => exact different (beq_iff_eq.mp identities)
  | _, _, .head clash, alike => by
      cases alike with
      | other absurd => exact absurd
      | number stands => cases stands
      | production _ heads => exact Clashes.not_alike clash heads
  | _, _, .body clash, alike => by
      cases alike with
      | other absurd => exact absurd
      | number stands => cases stands
      | production _ _ bodies => exact ClashSomewhere.not_alike clash bodies
  | _, _, .list clash, alike => by
      cases alike with
      | other absurd => exact absurd
      | number stands => cases stands
      | list members => exact ClashSomewhere.not_alike clash members
  | _, _, .tuple clash, alike => by
      cases alike with
      | other absurd => exact absurd
      | number stands => cases stands
      | tuple members => exact ClashSomewhere.not_alike clash members
  | _, _, .token clash, alike => by
      cases alike with
      | other absurd => exact absurd
      | number stands => cases stands
      | token payloads => exact Clashes.not_alike clash payloads
  | _, _, .tokenSymbol clash, alike => by
      cases alike with
      | other absurd => exact absurd
      | number stands => cases stands
      | tokenSymbol payloads => exact Clashes.not_alike clash payloads
  | _, _, .shift clash, alike => by
      cases alike with
      | other absurd => exact absurd
      | number stands => cases stands
      | shift states => exact Clashes.not_alike clash states
  | _, _, .reduce clash, alike => by
      cases alike with
      | other absurd => exact absurd
      | number stands => cases stands
      | reduce rules => exact Clashes.not_alike clash rules

theorem ClashSomewhere.not_alike :
    ∀ {items others : List Value},
      ClashSomewhere items others → ¬ WhollyAlikeAll items others
  | _, _, .here clash, .cons here _ => Clashes.not_alike clash here
  | _, _, .later clash, .cons _ later => ClashSomewhere.not_alike clash later

end

theorem WhollyAlikeAll.length_eq
    {items others : List Value}
    (alike : WhollyAlikeAll items others) :
    items.length = others.length := by
  induction items generalizing others with
  | nil =>
      cases alike
      rfl
  | cons item rest inductionHypothesis =>
      cases alike with
      | cons _ later =>
          rw [List.length_cons, List.length_cons, inductionHypothesis later]

/-- What can be used as the same number is equal. -/
theorem equals_of_index
    {first second : Value}
    {number : Int}
    (firstStands : first.index? = some number)
    (secondStands : second.index? = some number) :
    first.equals second = true := by
  cases first with
  | bool truth =>
      cases firstStands
      cases second with
      | bool other =>
          cases truth <;> cases other <;> first | rfl | cases secondStands
      | int => exact beq_iff_eq.mpr (Option.some.inj secondStands).symm
      | _ => cases secondStands
  | int =>
      cases firstStands
      cases second with
      | bool | int => exact beq_iff_eq.mpr (Option.some.inj secondStands).symm
      | _ => cases secondStands
  | _ => cases firstStands

theorem bothHold_of_true
    {first : Id Bool}
    {second : Unit → Id Bool}
    (firstHolds : first.run = true)
    (secondHolds : (second ()).run = true) :
    (bothHold first second).run = true := by
  have holds : first = true := firstHolds
  subst holds
  exact secondHolds

mutual

/-- Values that are wholly alike are equal. -/
theorem WhollyAlike.equals :
    ∀ {first second : Value},
      first.WhollyAlike second → first.equals second = true
  | _, _, .other absurd => absurd.elim
  | _, _, .none => rfl
  | _, _, .number firstStands secondStands => equals_of_index firstStands secondStands
  | _, _, .text content => beq_self_eq_true content
  | _, _, .list members => by
      have agree := WhollyAlikeAll.agrees members
      simp only [Value.equals, Value.agrees, WhollyAlikeAll.length_eq members,
        if_true]
      exact agree
  | _, _, .tuple members => WhollyAlikeAll.agrees members
  | _, _, .token payloads => by
      have agree := WhollyAlike.equals payloads
      simp only [Value.equals, Value.agrees, Token.agrees, if_true]
      exact agree
  | _, _, .nonterminal carried => beq_self_eq_true carried
  | _, _, .tokenSymbol payloads => by
      have agree := WhollyAlike.equals payloads
      simp only [Value.equals, Value.agrees, Symbol.agrees, Token.agrees, if_true]
      exact agree
  | _, _, .nonterminalSymbol wrapped => beq_self_eq_true wrapped
  | _, _, .bareSymbol identity => beq_self_eq_true identity
  | _, _, .production identities heads bodies => by
      have headsAgree := WhollyAlike.equals heads
      have bodiesAgree := WhollyAlikeAll.agrees bodies
      simp only [Value.equals, Value.agrees, Production.agrees, identities, if_true]
      exact bothHold_of_true headsAgree bodiesAgree
  | _, _, .shift states => by
      have agree := WhollyAlike.equals states
      exact agree
  | _, _, .reduce rules => by
      have agree := WhollyAlike.equals rules
      exact agree
  | _, _, .accept lineage => beq_self_eq_true lineage
  | _, _, .error lineage => beq_self_eq_true lineage
  | _, _, .unknown lineage => beq_self_eq_true lineage
  | _, _, .table identities => beq_iff_eq.mpr identities

theorem WhollyAlikeAll.agrees :
    ∀ {items others : List Value},
      WhollyAlikeAll items others →
        Id.run (Value.agreesAll .byPlace items others) = true
  | _, _, .nil => rfl
  | _, _, .cons here later => by
      rw [agreesAll_byPlace_cons, WhollyAlike.equals here,
        WhollyAlikeAll.agrees later]
      rfl

end

mutual

/-- Nothing is left to a comparison where the first of two values is solid. -/
theorem Alike.wholly
    {others : Value → Value → Prop}
    (apart : ∀ first second, others first second → first.isSolid = false) :
    ∀ {first second : Value},
      first.Alike others second →
        first.isSolid = true → first.WhollyAlike second
  | _, _, .other related, solid => by
      rw [apart _ _ related] at solid
      cases solid
  | _, _, .none, _ => .none
  | _, _, .number firstStands secondStands, _ => .number firstStands secondStands
  | _, _, .text content, _ => .text content
  | _, _, .list members, solid => .list (AlikeAll.wholly apart members solid)
  | _, _, .tuple members, solid => .tuple (AlikeAll.wholly apart members solid)
  | _, _, .token payloads, solid => .token (Alike.wholly apart payloads solid)
  | _, _, .nonterminal carried, _ => .nonterminal carried
  | _, _, .tokenSymbol payloads, solid =>
      .tokenSymbol (Alike.wholly apart payloads solid)
  | _, _, .nonterminalSymbol wrapped, _ => .nonterminalSymbol wrapped
  | _, _, .bareSymbol identity, _ => .bareSymbol identity
  | _, _, .production identities heads bodies, solid => by
      have parts := Bool.and_eq_true_iff.mp solid
      exact
        .production identities (Alike.wholly apart heads parts.1)
          (AlikeAll.wholly apart bodies parts.2)
  | _, _, .shift states, solid => .shift (Alike.wholly apart states solid)
  | _, _, .reduce rules, solid => .reduce (Alike.wholly apart rules solid)
  | _, _, .accept lineage, _ => .accept lineage
  | _, _, .error lineage, _ => .error lineage
  | _, _, .unknown lineage, _ => .unknown lineage
  | _, _, .table identities, _ => .table identities

theorem AlikeAll.wholly
    {others : Value → Value → Prop}
    (apart : ∀ first second, others first second → first.isSolid = false) :
    ∀ {items otherItems : List Value},
      AlikeAll others items otherItems →
        areSolid items = true → WhollyAlikeAll items otherItems
  | _, _, .nil, _ => .nil
  | _, _, .cons here later, solid => by
      have parts := Bool.and_eq_true_iff.mp solid
      exact
        .cons (Alike.wholly apart here parts.1) (AlikeAll.wholly apart later parts.2)

end

/-- Solid values are equal exactly if they are wholly alike. -/
theorem equals_iff_whollyAlike
    {first second : Value}
    (solid : first.isSolid = true) :
    first.equals second = true ↔ first.WhollyAlike second := by
  constructor
  · intro equal
    refine Alike.wholly ?_ (Affirms.verdict.alike equal) solid
    rintro one other (⟨isDict, _⟩ | unlike)
    · cases one <;> first | rfl | cases isDict
    · cases one <;> first | rfl | cases unlike
  · exact WhollyAlike.equals

section Verdicts

variable {how : Comparison (Except Fault)}

/-- A verdict that needs two others, once these are known. -/
theorem bothHold_ok
    {first : Except Fault Bool}
    {second : Unit → Except Fault Bool}
    {verdict : Id Bool}
    {otherVerdict : Unit → Id Bool}
    (firstKnown : first = .ok verdict.run)
    (secondKnown : second () = .ok (otherVerdict ()).run) :
    bothHold first second = .ok (bothHold verdict otherVerdict).run := by
  subst firstKnown
  cases holds : verdict.run with
  | true =>
      have isTrue : verdict = true := holds
      subst isTrue
      exact secondKnown
  | false =>
      have isFalse : verdict = false := holds
      subst isFalse
      rfl

mutual

/-- Comparing solid values leads to a verdict, whatever becomes of mentions. -/
theorem agrees_solid
    (apart :
      ∀ first second : Value,
        first.isMention = false → second.isMention = false →
          how.unlike first second = .ok false) :
    ∀ first second : Value,
      first.isSolid = true → second.isSolid = true →
        first.agrees how second = .ok (first.equals second)
  | .none, second, _, solid => by
      cases second with
      | none => rfl
      | shared => cases solid
      | _ => exact apart _ _ rfl rfl
  | .bool _, second, _, solid => by
      cases second with
      | bool | int => rfl
      | shared => cases solid
      | _ => exact apart _ _ rfl rfl
  | .int _, second, _, solid => by
      cases second with
      | bool | int => rfl
      | shared => cases solid
      | _ => exact apart _ _ rfl rfl
  | .text _, second, _, solid => by
      cases second with
      | text => rfl
      | shared => cases solid
      | _ => exact apart _ _ rfl rfl
  | .list items, second, solid, otherSolid => by
      cases second with
      | list others =>
          have members := agreesAll_solid apart items others solid otherSolid
          simp only [Value.equals, Value.agrees]
          split
          · exact members
          · rfl
      | shared => cases otherSolid
      | _ => exact apart _ _ rfl rfl
  | .tuple items, second, solid, otherSolid => by
      cases second with
      | tuple others => exact agreesAll_solid apart items others solid otherSolid
      | shared => cases otherSolid
      | _ => exact apart _ _ rfl rfl
  | .token carried, second, solid, otherSolid => by
      cases second with
      | token other => exact agreesToken_solid apart carried other solid otherSolid
      | shared => cases otherSolid
      | _ => exact apart _ _ rfl rfl
  | .nonterminal _, second, _, solid => by
      cases second with
      | nonterminal => rfl
      | shared => cases solid
      | _ => exact apart _ _ rfl rfl
  | .symbol (.token wrapped), second, solid, otherSolid => by
      cases second with
      | symbol other =>
          cases other with
          | token other => exact agreesToken_solid apart wrapped other solid otherSolid
          | _ => rfl
      | shared => cases otherSolid
      | _ => exact apart _ _ rfl rfl
  | .symbol (.nonterminal _), second, _, solid => by
      cases second with
      | symbol other => cases other <;> rfl
      | shared => cases solid
      | _ => exact apart _ _ rfl rfl
  | .symbol (.bare _), second, _, solid => by
      cases second with
      | symbol other => cases other <;> rfl
      | shared => cases solid
      | _ => exact apart _ _ rfl rfl
  | .production ⟨identity, head, body, _⟩, second, solid, otherSolid => by
      cases second with
      | production other =>
          rcases other with ⟨otherIdentity, otherHead, otherBody, otherIndex⟩
          have parts := Bool.and_eq_true_iff.mp solid
          have otherParts := Bool.and_eq_true_iff.mp otherSolid
          have heads := agrees_solid apart head otherHead parts.1 otherParts.1
          have bodies := agreesAll_solid apart body otherBody parts.2 otherParts.2
          simp only [Value.equals, Value.agrees, Production.agrees]
          split
          · exact bothHold_ok heads bodies
          · rfl
      | shared => cases otherSolid
      | _ => exact apart _ _ rfl rfl
  | .action (.shift _ next), second, solid, otherSolid => by
      cases second with
      | action other =>
          cases other with
          | shift _ otherNext =>
              exact agrees_solid apart next otherNext solid otherSolid
          | _ => rfl
      | shared => cases otherSolid
      | _ => exact apart _ _ rfl rfl
  | .action (.reduce _ rule), second, solid, otherSolid => by
      cases second with
      | action other =>
          cases other with
          | reduce _ otherRule =>
              exact agrees_solid apart rule otherRule solid otherSolid
          | _ => rfl
      | shared => cases otherSolid
      | _ => exact apart _ _ rfl rfl
  | .action (.accept _), second, _, solid => by
      cases second with
      | action other => cases other <;> rfl
      | shared => cases solid
      | _ => exact apart _ _ rfl rfl
  | .action (.error _), second, _, solid => by
      cases second with
      | action other => cases other <;> rfl
      | shared => cases solid
      | _ => exact apart _ _ rfl rfl
  | .action (.unknown _), second, _, solid => by
      cases second with
      | action other => cases other <;> rfl
      | shared => cases solid
      | _ => exact apart _ _ rfl rfl
  | .table _, second, _, solid => by
      cases second with
      | table => rfl
      | shared => cases solid
      | _ => exact apart _ _ rfl rfl

theorem agreesAll_solid
    (apart :
      ∀ first second : Value,
        first.isMention = false → second.isMention = false →
          how.unlike first second = .ok false) :
    ∀ items others : List Value,
      areSolid items = true → areSolid others = true →
        agreesAll how items others =
          .ok (Id.run (agreesAll .byPlace items others))
  | [], [], _, _ => rfl
  | [], _ :: _, _, _ => rfl
  | _ :: _, [], _, _ => rfl
  | first :: rest, second :: otherRest, solid, otherSolid => by
      have parts := Bool.and_eq_true_iff.mp solid
      have otherParts := Bool.and_eq_true_iff.mp otherSolid
      exact
        bothHold_ok (agrees_solid apart first second parts.1 otherParts.1)
          (agreesAll_solid apart rest otherRest parts.2 otherParts.2)

theorem agreesToken_solid
    (apart :
      ∀ first second : Value,
        first.isMention = false → second.isMention = false →
          how.unlike first second = .ok false) :
    ∀ first second : Token,
      first.isSolid = true → second.isSolid = true →
        first.agrees how second = .ok (Id.run (first.agrees .byPlace second))
  | ⟨_, kind, value⟩, ⟨_, otherKind, otherValue⟩, solid, otherSolid => by
      have payloads := agrees_solid apart value otherValue solid otherSolid
      simp only [Token.agrees]
      split
      · exact payloads
      · rfl

end

end Verdicts

end Value

/-- Solid values are the same if they are equal, with any store. -/
theorem Store.same_solid
    (store : Store)
    {first second : Value}
    (firstSolid : first.isSolid = true)
    (secondSolid : second.isSolid = true) :
    store.same first second = .ok (first.equals second) := by
  refine Value.agrees_solid ?_ first second firstSolid secondSolid
  intro one other held otherHeld
  have apart : one.samePlace other = false := by
    cases one <;> first | rfl | cases held
  simp only [apart, held, otherHeld, Bool.or_self, Bool.false_eq_true, if_false]

namespace Value

mutual

/-- Kinds of solid values clash as they do in any store. -/
theorem KindsClash.clashInKind
    {through : Value → Value → Value → Value → Prop}
    (atMentions : LooksAtMentions through) :
    ∀ {first second : Value},
      first.KindsClash through second →
        first.isSolid = true → second.isSolid = true → first.ClashInKind second
  | _, _, .shifts different, _, _ => .shifts different
  | _, _, .reductions different, _, _ => .reductions different
  | _, _, .next states, solid, otherSolid =>
      .next (KindsClash.clashInKind atMentions states solid otherSolid)
  | _, _, .rule rules, solid, otherSolid =>
      .rule (KindsClash.clashInKind atMentions rules solid otherSolid)
  | _, _, .head heads, solid, otherSolid =>
      .head
        (KindsClash.clashInKind atMentions heads
          (Bool.and_eq_true_iff.mp solid).1 (Bool.and_eq_true_iff.mp otherSolid).1)
  | _, _, .body bodies, solid, otherSolid =>
      .body
        (KindsClashSomewhere.clashInKind atMentions bodies
          (Bool.and_eq_true_iff.mp solid).2 (Bool.and_eq_true_iff.mp otherSolid).2)
  | _, _, .tuple members, solid, otherSolid =>
      .tuple (KindsClashSomewhere.clashInKind atMentions members solid otherSolid)
  | first, second, .looked looks _, solid, otherSolid => by
      rcases atMentions _ _ _ _ looks with mention | mention
      · cases first with
        | shared => cases solid
        | _ => cases mention
      · cases second with
        | shared => cases otherSolid
        | _ => cases mention

theorem KindsClashSomewhere.clashInKind
    {through : Value → Value → Value → Value → Prop}
    (atMentions : LooksAtMentions through) :
    ∀ {items otherItems : List Value},
      KindsClashSomewhere through items otherItems →
        areSolid items = true → areSolid otherItems = true →
          KindsClashSomewhere (fun _ _ _ _ => False) items otherItems
  | _, _, .here clash, solid, otherSolid =>
      .here
        (KindsClash.clashInKind atMentions clash
          (Bool.and_eq_true_iff.mp solid).1 (Bool.and_eq_true_iff.mp otherSolid).1)
  | _, _, .later clash, solid, otherSolid =>
      .later
        (KindsClashSomewhere.clashInKind atMentions clash
          (Bool.and_eq_true_iff.mp solid).2 (Bool.and_eq_true_iff.mp otherSolid).2)

end

end Value

/-- What is filed alike may meet the same keys. -/
theorem FiledUpTo.mayMeet_eq
    {clash : Prop}
    {attempt other : Except Fault HashKey}
    (filed : FiledUpTo clash attempt other)
    (apart : ¬ clash)
    (third : Except Fault HashKey) :
    HashKey.mayMeet attempt third = HashKey.mayMeet other third := by
  cases filed with
  | fails => cases third <;> rfl
  | keys _ same => rw [same.mpr apart]

namespace Value

variable {first second third : Value}

/-- What equals one of two equal values equals the other unless it clashes with it. -/
theorem equals_iff_not_clashes
    (firstSolid : first.isSolid = true)
    (secondSolid : second.isSolid = true)
    (equal : first.equals second = true)
    (onward : second.equals third = true) :
    first.equals third = true ↔ ¬ first.Clashes third := by
  rw [equals_iff_whollyAlike firstSolid] at equal ⊢
  rw [equals_iff_whollyAlike secondSolid] at onward
  constructor
  · intro alike clash
    exact clash.not_alike alike
  · intro apart
    exact (equal.trans_or_clash onward).resolve_right apart

theorem equals_symm
    (firstSolid : first.isSolid = true)
    (secondSolid : second.isSolid = true)
    (equal : first.equals second = true) :
    second.equals first = true := by
  rw [equals_iff_whollyAlike secondSolid]
  exact ((equals_iff_whollyAlike firstSolid).mp equal).symm

/-- A key is compared alike with two equal ones if it clashes with neither. -/
theorem equals_congr
    (firstSolid : first.isSolid = true)
    (secondSolid : second.isSolid = true)
    (equal : first.equals second = true)
    (firstApart : ¬ first.Clashes third)
    (secondApart : ¬ second.Clashes third) :
    first.equals third = second.equals third := by
  have back := equals_symm firstSolid secondSolid equal
  rw [Bool.eq_iff_iff]
  constructor
  · intro onward
    exact
      (equals_iff_not_clashes secondSolid firstSolid back onward).mpr secondApart
  · intro onward
    exact
      (equals_iff_not_clashes firstSolid secondSolid equal onward).mpr firstApart

/-- Equal keys whose kinds do not clash are taken for the same keys by a dictionary. -/
theorem sameKey_congr
    (store : Store)
    (firstSolid : first.isSolid = true)
    (secondSolid : second.isSolid = true)
    (thirdSolid : third.isSolid = true)
    (equal : first.equals second = true)
    (kindsApart : ¬ first.ClashInKind second)
    (firstApart : ¬ first.Clashes third)
    (secondApart : ¬ second.Clashes third) :
    store.sameKey first third = store.sameKey second third := by
  have same : store.same first second = .ok true := by
    rw [store.same_solid firstSolid secondSolid, equal]
  have filed := Store.filedUpTo_of_sameWithin same
  have apart : ¬ store.ClashInKind first second := fun clash =>
    kindsApart (clash.clashInKind Store.looks_atMentions firstSolid secondSolid)
  rw [Store.sameKey, Store.sameKey, store.same_solid firstSolid thirdSolid,
    store.same_solid secondSolid thirdSolid,
    equals_congr firstSolid secondSolid equal firstApart secondApart]
  cases second.equals third with
  | false => rfl
  | true =>
      have meet := filed.mayMeet_eq apart (store.hashKey third)
      exact congrArg (fun may : Bool => if may then Except.ok true else .ok false) meet

/-- What is found in a dictionary depends on its keys only by how they compare. -/
theorem entryOf?_congr
    {store : Store}
    (sameVerdict : store.sameKey first third = store.sameKey second third)
    (value : Value)
    (before after : List (Value × Value)) :
    (Option.map Prod.snd <$> entryOf? store third (before ++ (first, value) :: after)) =
      Option.map Prod.snd <$>
        entryOf? store third (before ++ (second, value) :: after) := by
  unfold entryOf?
  induction before with
  | nil =>
      simp only [List.nil_append, List.findM?, sameVerdict]
      cases store.sameKey second third with
      | error cause => rfl
      | ok found =>
          cases found with
          | true => rfl
          | false => rfl
  | cons entry rest inductionHypothesis =>
      simp only [List.cons_append, List.findM?]
      cases store.sameKey entry.1 third with
      | error cause => rfl
      | ok found =>
          cases found with
          | true => rfl
          | false => exact inductionHypothesis

/--
Equality of solid values is an equivalence up to clashes.

Every value equals itself, equality goes both ways, and of two values that equal a third
the one equals the other exactly if they do not clash.  What a dictionary finds does not
depend on which of two equal keys it holds, as long as their kinds do not clash and the key
that is looked for clashes with neither.
-/
theorem equality_up_to_clashes
    (firstSolid : first.isSolid = true)
    (secondSolid : second.isSolid = true)
    (thirdSolid : third.isSolid = true) :
    first.equals first = true ∧
      (first.equals second = true → second.equals first = true) ∧
      (first.equals second = true →
        second.equals third = true →
          (first.equals third = true ↔ ¬ first.Clashes third)) ∧
      (first.equals second = true →
        ¬ first.ClashInKind second →
          ¬ first.Clashes third →
            ¬ second.Clashes third →
              ∀ (store : Store) (value : Value) (before after : List (Value × Value)),
                (Option.map Prod.snd <$>
                    entryOf? store third (before ++ (first, value) :: after)) =
                  Option.map Prod.snd <$>
                    entryOf? store third (before ++ (second, value) :: after)) := by
  refine
    ⟨(WhollyAlike.refl firstSolid).equals, equals_symm firstSolid secondSolid,
      equals_iff_not_clashes firstSolid secondSolid, ?_⟩
  intro equal kindsApart firstApart secondApart store value before after
  exact
    entryOf?_congr
      (sameKey_congr store firstSolid secondSolid thirdSolid equal kindsApart
        firstApart secondApart)
      value before after

/-- The rule that a word is one letter, of the class itself or of a derived one. -/
def letterRule
    (derivedIdentity : Option Nat) :
    Value :=
  .production ⟨derivedIdentity, .nonterminal ⟨"S"⟩, [.text "a"], .none⟩

theorem letterRules_equal :
    (letterRule (some 0)).isSolid = true ∧
      (letterRule Option.none).isSolid = true ∧
      (letterRule (some 0)).equals (letterRule Option.none) = true ∧
      (letterRule Option.none).equals (letterRule (some 0)) = true ∧
      ∀ (store : Store) (value : Value) (before after : List (Value × Value)),
        (Option.map Prod.snd <$>
            entryOf? store (letterRule (some 0))
              (before ++ (letterRule (some 0), value) :: after)) =
          Option.map Prod.snd <$>
            entryOf? store (letterRule (some 0))
              (before ++ (letterRule Option.none, value) :: after) := by
  have solid : ∀ identity, (letterRule identity).isSolid = true := fun _ => rfl
  obtain ⟨_, both, _, found⟩ :=
    equality_up_to_clashes (solid (some 0)) (solid Option.none) (solid (some 0))
  have equal : (letterRule (some 0)).equals (letterRule Option.none) = true := rfl
  have kindsApart : ¬ (letterRule (some 0)).ClashInKind (letterRule Option.none) :=
    not_clashInKind_of_inheritsKinds rfl rfl
  refine ⟨rfl, rfl, equal, both equal, found equal kindsApart ?_ ?_⟩
  · intro clash
    exact clash.not_alike (WhollyAlike.refl rfl)
  · intro clash
    exact
      clash.not_alike ((equals_iff_whollyAlike (solid Option.none)).mp (both equal))

/--
Two rules of derived classes differ, though both equal the same rule of the class itself,
and a dictionary finds one of them under that rule but not under the other.
-/
theorem equality_not_transitive :
    (letterRule (some 0)).equals (letterRule Option.none) = true ∧
      (letterRule Option.none).equals (letterRule (some 1)) = true ∧
      (letterRule (some 0)).equals (letterRule (some 1)) = false ∧
      (letterRule (some 0)).hashKey = (letterRule (some 1)).hashKey ∧
      entryOf? .empty (letterRule (some 1)) [(letterRule Option.none, .none)] =
        .ok (some (letterRule Option.none, .none)) ∧
      entryOf? .empty (letterRule (some 1)) [(letterRule (some 0), .none)] =
        .ok Option.none :=
  ⟨rfl, rfl, rfl, rfl, rfl, rfl⟩

end Value

end ShiftReduce
