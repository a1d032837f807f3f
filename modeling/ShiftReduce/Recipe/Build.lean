import ShiftReduce.Recipe.Basic
import ShiftReduce.Table.Lookup

namespace ShiftReduce

/-!
# Following recipes

A workshop holds what recipes draw on: the store, the things defined so far, and
the next identity to give out.  `Recipe.build` follows a recipe there.

Every container that a recipe makes gets a place in the store, so that it stays
one container wherever it comes up.  A definition is mentioned by name as often
as one likes, and a container may even come to hold itself.
-/

/-- What recipes draw on. -/
structure Workshop where
  store : Store
  definitions : List (String × Value)
  nextIdentity : Nat

/-- An activity in a workshop, which may fail with the workshop changed so far. -/
abbrev Assembly := EStateM Fault Workshop

namespace Workshop

/--
A workshop in which nothing has been made.

The identities before the first one are those of the tables of the example
grammars.
-/
def create : Workshop :=
  ⟨.empty, [], 3⟩

end Workshop

namespace Assembly

/-- Go on with a result, or fail with its fault, worded as things stand. -/
def demand
    {α : Type} :
    Except Fault α → Assembly α
  | .ok result => pure result
  | .error cause => do
      let workshop ← get
      throw (workshop.store.settle cause)

/-- The store as it is now. -/
def store : Assembly Store := do
  return (← get).store

/-- An identity that nothing else has. -/
def freshIdentity : Assembly Nat := do
  let workshop ← get
  set { workshop with nextIdentity := workshop.nextIdentity + 1 }
  return workshop.nextIdentity

/-- Give a container a place in the store; other values stay as they are. -/
def keep
    (value : Value) :
    Assembly Value := do
  let workshop ← get
  let (kept, store) := workshop.store.keep value
  set { workshop with store := store }
  return kept

/-- The thing that a name was defined to be. -/
def lookUp
    (name : String) :
    Assembly Value := do
  let workshop ← get
  demand
    (match workshop.definitions.lookup name with
      | some value => .ok value
      | none => .error (.unknownName name))

/-- A table with an identity of its own. -/
def newTable
    (actions gotos : List Cell)
    (initial : Value)
    (diagnosis : Diagnosis) :
    Assembly Value := do
  let identity ← freshIdentity
  return .table ⟨identity, actions, gotos, initial, diagnosis⟩

end Assembly

mutual

/-- Make a value, with places in the store for its containers. -/
def Recipe.build :
    Recipe → Assembly Value
  | .ready value => Assembly.keep value
  | .named name => Assembly.lookUp name
  | .list items => do
      let members ← Recipe.buildAll items
      Assembly.keep (.list members)
  | .tuple items => do
      let members ← Recipe.buildAll items
      Assembly.keep (.tuple members)
  | .dict entries => do
      let made ← Recipe.buildEntries [] entries
      Assembly.keep (.dict made)
  | .token kind payload => do
      let value ← payload.build
      return .token (.plain kind value)
  | .symbol content => do
      let value ← content.build
      let symbol ← Assembly.demand (Symbol.wrap value)
      return .symbol symbol
  | .tokenSymbol content => do
      let value ← content.build
      let symbol ← Assembly.demand (Symbol.wrapToken value)
      return .symbol symbol
  | .nonterminalSymbol content => do
      let value ← content.build
      let symbol ← Assembly.demand (Symbol.wrapNonterminal value)
      return .symbol symbol
  | .bareSymbol => do
      let identity ← Assembly.freshIdentity
      return .symbol (.bare identity)
  | .emptySymbol => Assembly.demand (.error .noVariant)
  | .rule derived head body index => do
      let head ← head.build
      let body ← body.build
      let index ← index.build
      let store ← Assembly.store
      let entries ← Assembly.demand (store.members body)
      let identity ← Assembly.freshIdentity
      return .production
        ⟨if derived then some identity else none, head, entries, index⟩
  | .shift lineage nextState => do
      let state ← nextState.build
      return .action (.shift lineage state)
  | .reduce lineage production => do
      let rule ← production.build
      return .action (.reduce lineage rule)
  | .table actions gotos initial => do
      let actionCells ← Recipe.buildCells [] actions
      let gotoCells ← Recipe.buildCells [] gotos
      let initialState ← initial.build
      Assembly.newTable actionCells gotoCells initialState .computed
  | .plainTable actions gotos initial => do
      let actionCells ← Recipe.buildCells [] actions
      let gotoCells ← Recipe.buildCells [] gotos
      let initialState ← initial.build
      Assembly.newTable actionCells gotoCells initialState .absent
  | .listingTable actions gotos initial expected => do
      let actionCells ← Recipe.buildCells [] actions
      let gotoCells ← Recipe.buildCells [] gotos
      let initialState ← initial.build
      let answer ← expected.build
      Assembly.newTable actionCells gotoCells initialState (.fixed answer)
  | .rowTable actions gotos initial => do
      let actionRows ← Recipe.buildRows [] actions
      let gotoRows ← Recipe.buildRows [] gotos
      let initialState ← initial.build
      let identity ← Assembly.freshIdentity
      let store ← Assembly.store
      let table ←
        Assembly.demand
          (Table.ofRows store identity actionRows gotoRows initialState)
      return .table table
termination_by structural recipe => recipe

/-- Make several values. -/
def Recipe.buildAll :
    List Recipe → Assembly (List Value)
  | [] => pure []
  | recipe :: rest => do
      let value ← recipe.build
      let values ← Recipe.buildAll rest
      return value :: values
termination_by structural recipes => recipes

/-- Make entries of a dictionary, and put each in once it is made. -/
def Recipe.buildEntries
    (entries : List (Value × Value)) :
    List (Recipe × Recipe) → Assembly (List (Value × Value))
  | [] => pure entries
  | (key, value) :: rest => do
      let key ← key.build
      let value ← value.build
      let store ← Assembly.store
      let entries ← Assembly.demand (Value.insertEntry store entries key value)
      Recipe.buildEntries entries rest
termination_by structural recipes => recipes

/-- Make cells of a table, and put each in once it is made. -/
def Recipe.buildCells
    (cells : List Cell) :
    List CellRecipe → Assembly (List Cell)
  | [] => pure cells
  | ⟨state, column, entry⟩ :: rest => do
      let state ← state.build
      let column ← column.build
      let entry ← entry.build
      let store ← Assembly.store
      let cells ← Assembly.demand (Cell.insert store cells ⟨state, column, entry⟩)
      Recipe.buildCells cells rest
termination_by structural recipes => recipes

/-- Make rows of a table, and put each in once it is made. -/
def Recipe.buildRows
    (rows : List Row) :
    List RowRecipe → Assembly (List Row)
  | [] => pure rows
  | ⟨state, entries⟩ :: rest => do
      let state ← state.build
      let entries ← Recipe.buildEntries [] entries
      let store ← Assembly.store
      let rows ← Assembly.demand (Row.insert store rows ⟨state, entries⟩)
      Recipe.buildRows rows rest
termination_by structural recipes => recipes

end

namespace Recipe

/-- Make a thing, and define a name to be it from now on. -/
def define
    (name : String)
    (recipe : Recipe) :
    Assembly Unit := do
  let value ← recipe.build
  modify fun workshop =>
    { workshop with definitions := (name, value) :: workshop.definitions }

end Recipe

end ShiftReduce
