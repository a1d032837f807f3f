import ShiftReduce.Table.Listing

namespace ShiftReduce

/-!
# Questions to transition tables

A question can be put to any value.  A table answers it, though a table with a
diagnosis of its own keeps its cells to itself; anything else lacks the member
that the question asks for.  What a table holds is only for reading, so requests
to change it are refused.
-/

namespace Table

/-- A question to a table, or a request to change it. -/
inductive Query where
  | initial
  | action (state kind : Value)
  | goto (state nonterminal : Value)
  | expected (state : Value)
  | actions
  | gotos
  | replaceAction (state kind entry : Value)
  | dropGoto (state nonterminal : Value)

/-- What a table answers. -/
inductive Answer where
  | text (text : String)
  | kinds (kinds : List Value)
  | actions (lines : List ListedAction)
  | gotos (lines : List ListedGoto)

/-- The member that a query asks for. -/
def Query.member :
    Query → String
  | .initial => "initial_state"
  | .action .. => "action"
  | .goto .. => "goto"
  | .expected _ => "expected"
  | .actions => "actions"
  | .gotos => "gotos"
  | .replaceAction .. => "actions"
  | .dropGoto .. => "gotos"

/-- Whether a query concerns all cells of a table. -/
def Query.needsCells :
    Query → Bool
  | .actions => true
  | .gotos => true
  | .replaceAction .. => true
  | .dropGoto .. => true
  | _ => false

/-- The answer that is the shown form of a value. -/
def Answer.ofValue
    (store : Store)
    (value : Value) :
    Except Fault Answer := do
  let text ← Fault.ofRendering (store.shown value)
  return .text text

/-- Answer a query that a table has the members for. -/
def reply
    (store : Store)
    (table : Table) :
    Query → Except Fault Answer
  | .initial => Answer.ofValue store table.initial
  | .action state kind => do
      let entry ← table.action store state kind
      Answer.ofValue store entry
  | .goto state nonterminal => do
      let nextState ← table.goto store state nonterminal
      Answer.ofValue store nextState
  | .expected state => do
      let kinds ← table.expected store state
      return .kinds (kinds.map store.resolve)
  | .actions => do
      let lines ← table.listedActions store
      return .actions lines
  | .gotos => do
      let lines ← table.listedGotos store
      return .gotos lines
  | .replaceAction .. => .error .readOnlyAssignment
  | .dropGoto .. => .error .readOnlyDeletion

/-- Put a query to any value. -/
def ask
    (store : Store)
    (subject : Value)
    (query : Query) :
    Except Fault Answer :=
  match subject with
  | .table table =>
      if query.needsCells && !table.isListable then
        .error (subject.lacks query.member)
      else
        table.reply store query
  | other => .error (other.lacks query.member)

end Table

end ShiftReduce
