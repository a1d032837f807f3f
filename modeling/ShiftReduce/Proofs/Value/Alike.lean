import ShiftReduce.Value.Dictionary

namespace ShiftReduce

/-!
# Values that are made alike

`Value.Alike` says by rules what a comparison finds out step by step: the parts of two
equal values are equal one by one, and nothing else matters.  The rules are the same for
every comparison.  What a comparison decides in its own way, mentions and dictionaries,
is left to a relation that the rules are given.

Whenever a comparison says yes, the values are made alike (`Affirms.alike`), be it one
that always comes to a verdict or one that may fail.
-/

/-- Whether a value is a dictionary that lies in no store. -/
def Value.isDict :
    Value → Bool
  | .dict _ => true
  | _ => false

mutual

/-- Two values whose parts are alike, with a relation for what has no rule here. -/
inductive Value.Alike
    (others : Value → Value → Prop) :
    Value → Value → Prop where
  | other
      {first second : Value}
      (related : others first second) :
      Alike others first second
  | none :
      Alike others .none .none
  | number
      {first second : Value}
      {number : Int}
      (firstStands : first.index? = some number)
      (secondStands : second.index? = some number) :
      Alike others first second
  | text
      (content : String) :
      Alike others (.text content) (.text content)
  | list
      {items otherItems : List Value}
      (members : Value.AlikeAll others items otherItems) :
      Alike others (.list items) (.list otherItems)
  | tuple
      {items otherItems : List Value}
      (members : Value.AlikeAll others items otherItems) :
      Alike others (.tuple items) (.tuple otherItems)
  | token
      {tokenClass otherClass : TokenClass}
      {kind : String}
      {value other : Value}
      (payloads : Value.Alike others value other) :
      Alike others
        (.token ⟨tokenClass, kind, value⟩) (.token ⟨otherClass, kind, other⟩)
  | nonterminal
      (carried : NonTerminal) :
      Alike others (.nonterminal carried) (.nonterminal carried)
  | tokenSymbol
      {tokenClass otherClass : TokenClass}
      {kind : String}
      {value other : Value}
      (payloads : Value.Alike others value other) :
      Alike others
        (.symbol (.token ⟨tokenClass, kind, value⟩))
        (.symbol (.token ⟨otherClass, kind, other⟩))
  | nonterminalSymbol
      (wrapped : NonTerminal) :
      Alike others
        (.symbol (.nonterminal wrapped)) (.symbol (.nonterminal wrapped))
  | bareSymbol
      (identity : Nat) :
      Alike others (.symbol (.bare identity)) (.symbol (.bare identity))
  | production
      {identity otherIdentity : Option Nat}
      {head otherHead index otherIndex : Value}
      {body otherBody : List Value}
      (identities : identitiesAgree identity otherIdentity = true)
      (heads : Value.Alike others head otherHead)
      (bodies : Value.AlikeAll others body otherBody) :
      Alike others
        (.production ⟨identity, head, body, index⟩)
        (.production ⟨otherIdentity, otherHead, otherBody, otherIndex⟩)
  | shift
      {lineage otherLineage : Lineage}
      {next otherNext : Value}
      (states : Value.Alike others next otherNext) :
      Alike others
        (.action (.shift lineage next)) (.action (.shift otherLineage otherNext))
  | reduce
      {lineage otherLineage : Lineage}
      {rule otherRule : Value}
      (rules : Value.Alike others rule otherRule) :
      Alike others
        (.action (.reduce lineage rule)) (.action (.reduce otherLineage otherRule))
  | accept
      (lineage : Lineage) :
      Alike others (.action (.accept lineage)) (.action (.accept lineage))
  | error
      (lineage : Lineage) :
      Alike others (.action (.error lineage)) (.action (.error lineage))
  | unknown
      (lineage : Lineage) :
      Alike others (.action (.unknown lineage)) (.action (.unknown lineage))
  | table
      {table other : Table}
      (identities : table.identity = other.identity) :
      Alike others (.table table) (.table other)

/-- Two lists of values that are alike one by one. -/
inductive Value.AlikeAll
    (others : Value → Value → Prop) :
    List Value → List Value → Prop where
  | nil :
      AlikeAll others [] []
  | cons
      {first second : Value}
      {rest otherRest : List Value}
      (here : Value.Alike others first second)
      (later : Value.AlikeAll others rest otherRest) :
      AlikeAll others (first :: rest) (second :: otherRest)

end

/-- A way of telling from a verdict that it is yes, which goes down to its parts. -/
structure Affirms
    {m : Type → Type}
    [Monad m]
    (isYes : m Bool → Prop) :
    Prop where
  ofPure : ∀ {verdict : Bool}, isYes (pure verdict) → verdict = true
  ofBoth :
    ∀ {first : m Bool} {second : Unit → m Bool},
      isYes (bothHold first second) → isYes first ∧ isYes (second ())

/-- What a comparison says yes to without a rule: two dictionaries, or what is unlike. -/
def Comparison.Grants
    {m : Type → Type}
    (isYes : m Bool → Prop)
    (how : Comparison m)
    (first second : Value) :
    Prop :=
  first.isDict = true ∧ second.isDict = true ∨ isYes (how.unlike first second)

namespace Affirms

theorem verdict :
    Affirms (m := Id) fun verdict => verdict.run = true where
  ofPure said := said
  ofBoth := by
    intro first second said
    cases holds : first.run with
    | true =>
        have firstHolds : first = true := holds
        subst firstHolds
        exact ⟨rfl, said⟩
    | false =>
        have firstFails : first = false := holds
        subst firstFails
        cases said

theorem success :
    Affirms (m := Except Fault) fun verdict => verdict = .ok true where
  ofPure said := Except.ok.inj said
  ofBoth := by
    intro first second said
    cases first with
    | error cause => cases said
    | ok holds =>
        cases holds with
        | true => exact ⟨rfl, said⟩
        | false => cases said

section Rules

variable
  {m : Type → Type}
  [Monad m]
  {isYes : m Bool → Prop}

variable {how : Comparison m}

mutual

/-- Values are made alike if a comparison says so. -/
theorem alike
    (affirms : Affirms isYes) :
    ∀ {first second : Value},
      isYes (first.agrees how second) →
        first.Alike (how.Grants isYes) second
  | .none, second, said => by
      cases second with
      | none => exact .none
      | _ => exact .other (.inr said)
  | .bool truth, second, said => by
      cases second with
      | bool other =>
          obtain rfl := eq_of_beq (affirms.ofPure said)
          exact .number rfl rfl
      | int number => exact .number (eq_of_beq (affirms.ofPure said) ▸ rfl) rfl
      | _ => exact .other (.inr said)
  | .int number, second, said => by
      cases second with
      | bool truth => exact .number (eq_of_beq (affirms.ofPure said) ▸ rfl) rfl
      | int other => exact .number (eq_of_beq (affirms.ofPure said) ▸ rfl) rfl
      | _ => exact .other (.inr said)
  | .text content, second, said => by
      cases second with
      | text other =>
          obtain rfl := eq_of_beq (affirms.ofPure said)
          exact .text content
      | _ => exact .other (.inr said)
  | .list items, second, said => by
      cases second with
      | list others =>
          rw [Value.agrees] at said
          split at said
          · exact .list (affirms.alikeAll said)
          · cases affirms.ofPure said
      | _ => exact .other (.inr said)
  | .tuple items, second, said => by
      cases second with
      | tuple others => exact .tuple (affirms.alikeAll said)
      | _ => exact .other (.inr said)
  | .dict entries, second, said => by
      cases second with
      | dict others => exact .other (.inl ⟨rfl, rfl⟩)
      | _ => exact .other (.inr said)
  | .shared _ _, second, said => .other (.inr said)
  | .token carried, second, said => by
      cases second with
      | token other =>
          obtain ⟨sameKind, payloads⟩ := affirms.payloadsAlike said
          rcases carried with ⟨tokenClass, kind, value⟩
          rcases other with ⟨otherClass, otherKind, otherValue⟩
          obtain rfl := sameKind
          exact .token payloads
      | _ => exact .other (.inr said)
  | .nonterminal carried, second, said => by
      cases second with
      | nonterminal other =>
          obtain rfl := eq_of_beq (affirms.ofPure said)
          exact .nonterminal carried
      | _ => exact .other (.inr said)
  | .symbol (.token wrapped), second, said => by
      cases second with
      | symbol other =>
          cases other with
          | token other =>
              obtain ⟨sameKind, payloads⟩ := affirms.payloadsAlike said
              rcases wrapped with ⟨tokenClass, kind, value⟩
              rcases other with ⟨otherClass, otherKind, otherValue⟩
              obtain rfl := sameKind
              exact .tokenSymbol payloads
          | _ => cases affirms.ofPure said
      | _ => exact .other (.inr said)
  | .symbol (.nonterminal wrapped), second, said => by
      cases second with
      | symbol other =>
          cases other with
          | nonterminal other =>
              obtain rfl := eq_of_beq (affirms.ofPure said)
              exact .nonterminalSymbol wrapped
          | _ => cases affirms.ofPure said
      | _ => exact .other (.inr said)
  | .symbol (.bare identity), second, said => by
      cases second with
      | symbol other =>
          cases other with
          | bare other =>
              obtain rfl := eq_of_beq (affirms.ofPure said)
              exact .bareSymbol identity
          | _ => cases affirms.ofPure said
      | _ => exact .other (.inr said)
  | .production ⟨identity, head, body, index⟩, second, said => by
      cases second with
      | production other =>
          rcases other with ⟨otherIdentity, otherHead, otherBody, otherIndex⟩
          change isYes (Production.agrees how _ _) at said
          rw [Production.agrees] at said
          split at said
          · next identities =>
              obtain ⟨heads, bodies⟩ := affirms.ofBoth said
              exact
                .production identities (affirms.alike heads)
                  (affirms.alikeAll bodies)
          · cases affirms.ofPure said
      | _ => exact .other (.inr said)
  | .action (.shift _ next), second, said => by
      cases second with
      | action other =>
          cases other with
          | shift _ otherNext => exact .shift (affirms.alike said)
          | _ => cases affirms.ofPure said
      | _ => exact .other (.inr said)
  | .action (.reduce _ rule), second, said => by
      cases second with
      | action other =>
          cases other with
          | reduce _ otherRule => exact .reduce (affirms.alike said)
          | _ => cases affirms.ofPure said
      | _ => exact .other (.inr said)
  | .action (.accept lineage), second, said => by
      cases second with
      | action other =>
          cases other with
          | accept other =>
              obtain rfl := eq_of_beq (affirms.ofPure said)
              exact .accept lineage
          | _ => cases affirms.ofPure said
      | _ => exact .other (.inr said)
  | .action (.error lineage), second, said => by
      cases second with
      | action other =>
          cases other with
          | error other =>
              obtain rfl := eq_of_beq (affirms.ofPure said)
              exact .error lineage
          | _ => cases affirms.ofPure said
      | _ => exact .other (.inr said)
  | .action (.unknown lineage), second, said => by
      cases second with
      | action other =>
          cases other with
          | unknown other =>
              obtain rfl := eq_of_beq (affirms.ofPure said)
              exact .unknown lineage
          | _ => cases affirms.ofPure said
      | _ => exact .other (.inr said)
  | .table table, second, said => by
      cases second with
      | table other => exact .table (eq_of_beq (affirms.ofPure said))
      | _ => exact .other (.inr said)

/-- Tokens have the same kind and payloads made alike if a comparison says yes. -/
theorem payloadsAlike
    (affirms : Affirms isYes) :
    ∀ {first second : Token},
      isYes (first.agrees how second) →
        first.kind = second.kind ∧
          first.value.Alike (how.Grants isYes) second.value
  | ⟨_, kind, value⟩, second, said => by
      rw [Token.agrees] at said
      split at said
      · next sameKind => exact ⟨sameKind, affirms.alike said⟩
      · cases affirms.ofPure said

theorem alikeAll
    (affirms : Affirms isYes) :
    ∀ {items others : List Value},
      isYes (Value.agreesAll how items others) →
        Value.AlikeAll (how.Grants isYes) items others
  | [], [], _ => .nil
  | [], _ :: _, said => by cases affirms.ofPure said
  | _ :: _, [], said => by cases affirms.ofPure said
  | first :: rest, second :: otherRest, said => by
      obtain ⟨here, later⟩ := affirms.ofBoth said
      exact .cons (affirms.alike here) (affirms.alikeAll later)

end

end Rules

end Affirms

end ShiftReduce
