import ShiftReduce.Value.Access
import ShiftReduce.Value.Equality
import ShiftReduce.Value.HashKey

namespace ShiftReduce

/-!
# Stores

A store holds containers, each at a place of its own.  Values mention such a
container by its place, so that it stays one container wherever it comes up.
Whoever wants to see, compare or file a value looks through the places it
mentions, at what the store holds at that moment.

`Store.resolve` puts the contents of places where values mention them.  A
container may come to mention itself, so a place that is being looked through
is not looked through again inside itself; it stays a mention there.  A tuple
that fills the gap of a text does not show as such, only its members do, so that
looking through it does not count.

`Store.same` compares values as things stand.  A container equals itself without
further ado.  Containers that mention themselves can make a comparison of others
endless; one that goes through too many containers is given up as a fault.

That limit, `Store.deepest`, is the only one of an interpreter's limits on
nesting that counts here, because without it such a comparison would have no
outcome.  It counts the shared containers inside each other, while an interpreter
counts all its calls, so that the two may differ where a comparison comes to an end
after about as many.  Values that lie in no store are compared, filed, shown and
looked through however deep they are nested.
-/

/--
What takes the place of mentions: one thing where a container shows as a whole,
and one where it fills the gap of a text.
-/
structure Filling where
  mention : ContainerSort → Nat → Value
  gap : ContainerSort → Nat → Value

mutual

/-- A value with something else put where it mentions a shared container. -/
def Value.expand
    (fill : Filling) :
    Value → Value
  | .none => .none
  | .bool truth => .bool truth
  | .int number => .int number
  | .text content => .text content
  | .list items => .list (Value.expandAll fill items)
  | .tuple items => .tuple (Value.expandAll fill items)
  | .dict entries => .dict (Value.expandEntries fill entries)
  | .shared sort place => fill.mention sort place
  | .token carried => .token (carried.expand fill)
  | .nonterminal carried => .nonterminal carried
  | .symbol carried => .symbol (carried.expand fill)
  | .production carried => .production (carried.expand fill)
  | .action carried => .action (carried.expand fill)
  | .table carried => .table carried
termination_by structural value => value

/-- Several values, each expanded. -/
def Value.expandAll
    (fill : Filling) :
    List Value → List Value
  | [] => []
  | value :: rest => value.expand fill :: Value.expandAll fill rest
termination_by structural values => values

/-- The entries of a dictionary, each expanded. -/
def Value.expandEntries
    (fill : Filling) :
    List (Value × Value) → List (Value × Value)
  | [] => []
  | (key, value) :: rest =>
      (key.expand fill, value.expand fill) :: Value.expandEntries fill rest
termination_by structural entries => entries

/-- A token with its payload expanded. -/
def Token.expand
    (fill : Filling) :
    Token → Token
  | ⟨tokenClass, kind, value⟩ => ⟨tokenClass, kind, value.expand fill⟩
termination_by structural token => token

/-- A symbol with what it wraps expanded. -/
def Symbol.expand
    (fill : Filling) :
    Symbol → Symbol
  | .token wrapped => .token (wrapped.expand fill)
  | .nonterminal wrapped => .nonterminal wrapped
  | .bare identity => .bare identity
termination_by structural symbol => symbol

/-- A rule with its parts expanded; the head of a rule with an empty body fills a gap. -/
def Production.expand
    (fill : Filling) :
    Production → Production
  | ⟨identity, .shared sort place, [], index⟩ =>
      ⟨identity, fill.gap sort place, [], index.expand fill⟩
  | ⟨identity, head, body, index⟩ =>
      ⟨identity, head.expand fill, Value.expandAll fill body, index.expand fill⟩
termination_by structural production => production

/-- An action with what it carries expanded; the rule of a reduction fills a gap. -/
def Action.expand
    (fill : Filling) :
    Action → Action
  | .shift lineage nextState => .shift lineage (nextState.expand fill)
  | .reduce lineage (.shared sort place) => .reduce lineage (fill.gap sort place)
  | .reduce lineage production => .reduce lineage (production.expand fill)
  | .accept lineage => .accept lineage
  | .error lineage => .error lineage
  | .unknown lineage => .unknown lineage
termination_by structural action => action

end

/-- Containers by place. -/
structure Store where
  contents : Array Value

namespace Store

/-- A store that holds nothing. -/
def empty : Store :=
  ⟨#[]⟩

/-- What lies at a place. -/
def contentAt
    (store : Store)
    (place : Nat) :
    Value :=
  store.contents[place]?.getD .none

/-- The store with another content at a place. -/
def replace
    (store : Store)
    (place : Nat)
    (content : Value) :
    Store :=
  ⟨store.contents.setIfInBounds place content⟩

/-- Give a container a place, and mention it by that from now on; other values stay. -/
def keep
    (store : Store)
    (value : Value) :
    Value × Store :=
  match value.containerSort? with
  | some sort =>
      (.shared sort store.contents.size, ⟨store.contents.push value⟩)
  | none => (value, store)

/-- The container that a value mentions, or else the value itself. -/
def lookAt
    (store : Store) :
    Value → Value
  | .shared _ place => store.contentAt place
  | other => other

/--
Look through the places that a value mentions, for as many levels as are
granted, without looking again through those that are being looked through.
-/
def resolveWithin
    (store : Store) :
    (levels : Nat) → (within : List Nat) → Value → Value
  | 0, _, value => value
  | levels + 1, within, value =>
      let mention sort place :=
        if within.contains place then
          .shared sort place
        else
          store.resolveWithin levels (place :: within) (store.contentAt place)
      let gap sort place :=
        if sort = .tuple then
          store.resolveWithin levels within (store.contentAt place)
        else
          mention sort place
      value.expand ⟨mention, gap⟩

/--
As many levels as there can be.

No place is looked through inside itself, so at most all places count.  Between
two that count there are only tuples in gaps, which hold nothing but what was
there before them, so at most all places again.
-/
def levels
    (store : Store) :
    Nat :=
  (store.contents.size + 1) * (store.contents.size + 1)

/-- A value with the contents of all places that it mentions. -/
def resolve
    (store : Store)
    (value : Value) :
    Value :=
  store.resolveWithin store.levels [] value

/-- A value that fills the gap of a text, with the contents of all places that it mentions. -/
def resolveInGap
    (store : Store) :
    Value → Value
  | .shared .tuple place => store.resolve (store.contentAt place)
  | other => store.resolve other

/-- What takes the place of mentions that are not inside any container. -/
def filling
    (store : Store) :
    Filling where
  mention sort place := store.resolve (.shared sort place)
  gap sort place := store.resolveInGap (.shared sort place)

/-- A symbol with the contents of all places that it mentions. -/
def resolveSymbol
    (store : Store)
    (symbol : Symbol) :
    Symbol :=
  symbol.expand store.filling

/-- A rule with the contents of all places that it mentions. -/
def resolveProduction
    (store : Store)
    (production : Production) :
    Production :=
  production.expand store.filling

/-- The hash key of a value as things stand. -/
def hashKey
    (store : Store)
    (value : Value) :
    Except Fault HashKey :=
  (store.resolve value).hashKey

/--
The verdict on two keys of a dictionary, given the one that comparing them leads
to.  Things with different hash keys are never compared there, so they are two
keys even if they are equal, or if comparing them fails.
-/
def judgeKeys
    (store : Store)
    (first second : Value) :
    Except Fault Bool → Except Fault Bool
  | .ok false => .ok false
  | verdict =>
      if HashKey.mayMeet (store.hashKey first) (store.hashKey second) then
        verdict
      else
        .ok false

/-- Compare values as things stand, through as many containers as are granted. -/
def sameWithin
    (store : Store) :
    (containers : Nat) → Value → Value → Except Fault Bool
  | 0, _, _ => .error .endlessComparison
  | containers + 1, first, second =>
      let unlike first second :=
        if first.samePlace second then
          .ok true
        else if first.isMention || second.isMention then
          store.sameWithin containers
            (store.lookAt first)
            (store.lookAt second)
        else
          .ok false
      first.agrees ⟨unlike, store.judgeKeys⟩ second

/--
How many containers inside each other a comparison goes through before it is given up: as many
as the calls inside each other that an interpreter allows by default.
-/
def deepest : Nat := 1000

/-- Whether two values are equal as things stand. -/
def same
    (store : Store)
    (first second : Value) :
    Except Fault Bool :=
  store.sameWithin deepest first second

/-- Whether a dictionary takes two values for the same key. -/
def sameKey
    (store : Store)
    (first second : Value) :
    Except Fault Bool :=
  store.judgeKeys first second (store.same first second)

/-- The shown form of a value as things stand. -/
def shown
    (store : Store)
    (value : Value) :
    Rendering :=
  (store.resolve value).shown

/-- The plain form of a value as things stand. -/
def plain
    (store : Store)
    (value : Value) :
    Rendering :=
  (store.resolve value).plain

/-- The shown forms of several values as things stand. -/
def shownAll
    (store : Store)
    (values : List Value) :
    Except Misfit (List String) :=
  Value.shownAll (values.map store.resolve)

/-- The plain forms of several values as things stand. -/
def plainAll
    (store : Store)
    (values : List Value) :
    Except Misfit (List String) :=
  Value.plainAll (values.map store.resolve)

/-- The members that a value has at the moment. -/
def members
    (store : Store)
    (value : Value) :
    Except Fault (List Value) :=
  (store.lookAt value).members

/-- The number of things in a value at the moment, if it has a length. -/
def length?
    (store : Store)
    (value : Value) :
    Option Nat :=
  (store.lookAt value).length?

/-- A defect with the contents of all places that it mentions. -/
def resolveDefect
    (store : Store) :
    Defect → Defect
  | .tooDeep production available state =>
      .tooDeep (store.resolveProduction production) available
        (store.resolve state)
  | .missingGoto head state =>
      .missingGoto (store.resolve head) (store.resolve state)
  | .unknownAction action state =>
      .unknownAction (store.resolve action) (store.resolve state)
  | .inputExhausted state => .inputExhausted (store.resolve state)

/-- A fault with the contents of all places that it mentions. -/
def resolveFault
    (store : Store) :
    Fault → Fault
  | .unexpectedToken state token expected =>
      .unexpectedToken (store.resolve state) (store.resolve token)
        (expected.map store.resolve)
  | .malformedTable defect => .malformedTable (store.resolveDefect defect)
  | .unwrappable value => .unwrappable (store.resolve value)
  | .expectedToken value => .expectedToken (store.resolve value)
  | .expectedNonterminal value => .expectedNonterminal (store.resolve value)
  | .symbolIsNoToken symbol => .symbolIsNoToken (store.resolveSymbol symbol)
  | .symbolIsNoNonterminal symbol =>
      .symbolIsNoNonterminal (store.resolveSymbol symbol)
  | other => other

/--
A fault as it shows when it arises.

A fault is worded at once.  Where the wording comes to a misfit, the misfit
takes the place of the fault.
-/
def settle
    (store : Store)
    (fault : Fault) :
    Fault :=
  let resolved := store.resolveFault fault
  match resolved.wording with
  | .ok _ => resolved
  | .error misfit => .misfit misfit

end Store

end ShiftReduce
