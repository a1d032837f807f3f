import ShiftReduce.Value.Access

namespace ShiftReduce

/-!
# Descriptions

All that can be told of a value in texts: its class, its two forms, and what is
particular to the part of a grammar that it is.
-/

/-- An entry of a rule's body in text. -/
structure BodyEntryText where
  isNonterminal : Bool
  text : String

/-- What is particular to a part of a grammar. -/
inductive Aspects where
  | nothing
  | token (kind value : String)
  | nonterminal (name : String)
  | symbol
      (isToken isNonterminal : Bool)
      (asToken asNonterminal : Except Account String)
  | production
      (length : Nat)
      (head : String)
      (body : List BodyEntryText)
      (index : String)
  | shift (kind nextState : String)
  | reduce (kind production : String)
  | action (kind : String)

/-- All that can be told of a value. -/
structure Description where
  typeName : String
  shown : String
  plain : String
  aspects : Aspects

/-- What a request comes to, in texts. -/
def requestText
    {α : Type}
    (text : α → Rendering) :
    Except Fault α → Except Misfit (Except Account String)
  | .ok result => do
      let resultText ← text result
      return .ok resultText
  | .error cause => do
      let account ← cause.account
      return .error account

/-- An entry of a rule's body in text. -/
def BodyEntryText.of
    (entry : Value) :
    Except Misfit BodyEntryText := do
  let text ← entry.plain
  match entry with
  | .nonterminal _ => return ⟨true, text⟩
  | _ => return ⟨false, text⟩

/-- What is particular to a value. -/
def Value.aspects :
    Value → Except Misfit Aspects
  | .token carried => do
      let value ← carried.value.shown
      return .token carried.kind value
  | .nonterminal carried => .ok (.nonterminal carried.name)
  | .symbol carried => do
      let asToken ← requestText Token.shown carried.asToken
      let asNonterminal ←
        requestText (fun wrapped => .ok wrapped.name) carried.asNonterminal
      return .symbol carried.isToken carried.isNonterminal asToken asNonterminal
  | .production carried => do
      let head ← carried.head.shown
      let body ← carried.body.mapM BodyEntryText.of
      let index ← carried.index.shown
      return .production carried.length head body index
  | .action (.shift lineage nextState) => do
      let text ← nextState.shown
      return .shift (Action.shift lineage nextState).kind text
  | .action (.reduce lineage rule) => do
      let text ← rule.shown
      return .reduce (Action.reduce lineage rule).kind text
  | .action carried => .ok (.action carried.kind)
  | _ => .ok .nothing

/-- Describe a value. -/
def Value.describe
    (value : Value) :
    Except Misfit Description := do
  let shown ← value.shown
  let plain ← value.plain
  let aspects ← value.aspects
  return ⟨value.typeName, shown, plain, aspects⟩

end ShiftReduce
