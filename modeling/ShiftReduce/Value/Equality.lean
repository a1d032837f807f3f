import ShiftReduce.Value.HashKey

namespace ShiftReduce

/-!
# Equality of values

Two values are equal when their contents are, with these exceptions: a truth
value equals the integer it stands for, dictionaries are equal regardless of
the order of their entries, a rule's index does not matter, and tables, bare
symbols and the places of shared containers are compared by identity.  Two rules
of derived classes are equal only if they are one and the same; yet a rule of a
derived class equals a rule of the class itself with the same head and body.
Shifts are compared by what they carry, and so are reductions, whatever their
classes and kinds; any other actions are equal if they are of the same class.

The rule is `Value.agrees`.  It leaves open what becomes of a container that is
only mentioned, which a `Comparison` supplies: `Value.equals` goes by the place
alone, and a store can look at what lies there, which may fail.  Parts are
compared from left to right, and nothing is compared after the first difference.
-/

/-- The integer that a truth value stands for. -/
def truthNumber :
    Bool → Int
  | true => 1
  | false => 0

/-- Whether two identities allow their bearers to be equal; a missing one does. -/
def identitiesAgree :
    Option Nat → Option Nat → Bool
  | some first, some second => first == second
  | _, _ => true

/--
What a comparison of values leaves open: the verdict on two values that are not
made alike, one of which may be a mention, and the verdict on two keys of
dictionaries, given the one that comparing them leads to.
-/
structure Comparison (m : Type → Type) where
  unlike : Value → Value → m Bool
  keys : Value → Value → m Bool → m Bool

/-- A verdict that needs two others, of which the second counts only after the first. -/
@[inline]
def bothHold
    {m : Type → Type}
    [Monad m]
    (first : m Bool)
    (second : Unit → m Bool) :
    m Bool := do
  if ← first then
    second ()
  else
    return false

mutual

/-- Whether two values are equal, as far as a comparison can tell. -/
def Value.agrees
    {m : Type → Type}
    [Monad m]
    (how : Comparison m) :
    Value → Value → m Bool
  | .none, .none => pure true
  | .bool first, .bool second => pure (first == second)
  | .bool first, .int second => pure (truthNumber first == second)
  | .int first, .bool second => pure (first == truthNumber second)
  | .int first, .int second => pure (first == second)
  | .text first, .text second => pure (first == second)
  | .list first, .list second =>
      if first.length = second.length then
        Value.agreesAll how first second
      else
        pure false
  | .tuple first, .tuple second => Value.agreesAll how first second
  | .dict first, .dict second =>
      if first.length = second.length then
        Value.agreesEntries how first second
      else
        pure false
  | .token first, .token second => first.agrees how second
  | .nonterminal first, .nonterminal second => pure (first == second)
  | .symbol first, .symbol second => first.agrees how second
  | .production first, .production second => first.agrees how second
  | .action first, .action second => first.agrees how second
  | .table first, .table second => pure (first.identity == second.identity)
  | first, second => how.unlike first second
termination_by structural first => first

/-- Whether two lists agree value by value. -/
def Value.agreesAll
    {m : Type → Type}
    [Monad m]
    (how : Comparison m) :
    List Value → List Value → m Bool
  | [], [] => pure true
  | first :: firstRest, second :: secondRest =>
      bothHold (first.agrees how second) fun _ =>
        Value.agreesAll how firstRest secondRest
  | _, _ => pure false
termination_by structural first => first

/-- Whether every entry has its equal among other entries. -/
def Value.agreesEntries
    {m : Type → Type}
    [Monad m]
    (how : Comparison m) :
    List (Value × Value) → List (Value × Value) → m Bool
  | [], _ => pure true
  | (key, value) :: rest, others => do
      let found ←
        others.findM? fun other =>
          how.keys key other.1 (key.agrees how other.1)
      match found with
      | some other =>
          bothHold (value.agrees how other.2) fun _ =>
            Value.agreesEntries how rest others
      | none => return false
termination_by structural entries => entries

/-- Tokens are equal when kind and payload are, whatever their class. -/
def Token.agrees
    {m : Type → Type}
    [Monad m]
    (how : Comparison m) :
    Token → Token → m Bool
  | ⟨_, kind, value⟩, other =>
      if kind = other.kind then
        value.agrees how other.value
      else
        pure false
termination_by structural token => token

/-- Symbols are equal when they wrap equal things of the same sort. -/
def Symbol.agrees
    {m : Type → Type}
    [Monad m]
    (how : Comparison m) :
    Symbol → Symbol → m Bool
  | .token first, .token second => first.agrees how second
  | .nonterminal first, .nonterminal second => pure (first == second)
  | .bare first, .bare second => pure (first == second)
  | _, _ => pure false
termination_by structural symbol => symbol

/-- Rules by head and body; two of derived classes have to be the same rule. -/
def Production.agrees
    {m : Type → Type}
    [Monad m]
    (how : Comparison m) :
    Production → Production → m Bool
  | ⟨identity, head, body, _⟩, other =>
      if identitiesAgree identity other.derivedIdentity then
        bothHold (head.agrees how other.head) fun _ =>
          Value.agreesAll how body other.body
      else
        pure false
termination_by structural production => production

/-- Shifts by next state, reductions by rule, any others by class. -/
def Action.agrees
    {m : Type → Type}
    [Monad m]
    (how : Comparison m) :
    Action → Action → m Bool
  | .shift _ first, .shift _ second => first.agrees how second
  | .reduce _ first, .reduce _ second => first.agrees how second
  | .accept first, .accept second => pure (first == second)
  | .error first, .error second => pure (first == second)
  | .unknown first, .unknown second => pure (first == second)
  | _, _ => pure false
termination_by structural action => action

end

namespace Value

/-- Whether a value is a mention of a shared container. -/
def isMention :
    Value → Bool
  | .shared .. => true
  | _ => false

/-- Whether two values mention the same shared container. -/
def samePlace :
    Value → Value → Bool
  | .shared firstSort first, .shared secondSort second =>
      firstSort == secondSort && first == second
  | _, _ => false

end Value

/--
The comparison that takes mentions for what they are.  Keys of dictionaries meet only if
they are filed alike.
-/
def Comparison.byPlace : Comparison Id where
  unlike first second := pure (first.samePlace second)
  keys first second verdict :=
    bothHold verdict fun _ =>
      pure (HashKey.mayMeet first.hashKey second.hashKey)

/-- Whether two values are equal. -/
def Value.equals
    (first second : Value) :
    Bool :=
  Id.run (first.agrees .byPlace second)

end ShiftReduce
