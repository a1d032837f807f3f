import ShiftReduce.Proofs.Parser.Situation

namespace ShiftReduce

/-!
# The views of a parser

From outside, a parser shows its states and its symbols from the bottom to the top, the
bottom marker apart, and the tokens that are still to come.  An event of which observers
hear tells how these views change (`Views.after`), so that a log of events can be played
back on them (`Views.replay`).

A sanctioned action makes of the views just what its event says
(`Situation.Sanctions.views_after`).
-/

/-- What a parser lets be seen of itself: stacks from the bottom to the top, and the queue. -/
structure Views where
  path : List Value
  recognised : List Symbol
  pending : List Value

/-- The views of a parser. -/
def Parser.views
    (parser : Parser) :
    Views :=
  ⟨parser.path, parser.recognised, parser.pending⟩

namespace Views

/-- The views with a symbol and a state on top. -/
def push
    (views : Views)
    (symbol : Symbol)
    (state : Value) :
    Views :=
  { views with
    path := views.path ++ [state]
    recognised := views.recognised ++ [symbol] }

/-- The views with a number of pairs off the top. -/
def pop
    (views : Views)
    (depth : Nat) :
    Views :=
  { views with
    path := views.path.take (views.path.length - depth)
    recognised := views.recognised.take (views.recognised.length - depth) }

/-- The views without the lookahead. -/
def consume
    (views : Views) :
    Views :=
  { views with pending := views.pending.drop 1 }

/--
What the action of an event makes of views.

A shift pushes a symbol and the state that the table has for it, and consumes a token.
A reduction pops as many pairs as the rule is long, pushes one for its head, and leaves
the queue alone.
-/
def after
    (table : Table)
    (store : Store)
    (views : Views) :
    Event → Option Views
  | .shift state (.token token) =>
      match table.action store state (.text token.kind) with
      | .ok (.action (.shift .direct next)) =>
          some (views.push (.token token) next).consume
      | _ => none
  | .reduce _ (.production production) =>
      let popped := views.pop production.length
      match production.head, popped.path.getLast? with
      | .nonterminal head, some exposed =>
          match table.goto store exposed (.nonterminal head) with
          | .ok next => some (popped.push (.nonterminal head) next)
          | .error _ => none
      | _, _ => none
  | .accept _ => some views
  | _ => none

/-- What a log of events makes of views. -/
def replay
    (table : Table)
    (store : Store)
    (views : Views)
    (log : List Event) :
    Option Views :=
  log.foldlM (after table store) views

/--
Views in which an event is due: its state is on top, the table has its action for the
lookahead, which a shift consumes, and a reduction has a goto from the state that it
exposes.
-/
inductive Warrants
    (table : Table)
    (store : Store)
    (views : Views) :
    Event → Prop where
  | shift
      {state token next : Value}
      {kind : String}
      (top : views.path.getLast? = some state)
      (lookahead : views.pending.head? = some token)
      (named : token.kind? = some kind)
      (entry :
        table.action store state (.text kind) =
          .ok (.action (.shift .direct next))) :
      Warrants table store views (.shift state token)
  | reduce
      {state token exposed next : Value}
      {kind : String}
      {production : Production}
      (top : views.path.getLast? = some state)
      (lookahead : views.pending.head? = some token)
      (named : token.kind? = some kind)
      (entry :
        table.action store state (.text kind) =
          .ok (.action (.reduce .direct (.production production))))
      (deep : production.length < views.path.length)
      (exposes :
        views.path[views.path.length - 1 - production.length]? = some exposed)
      (goto : table.goto store exposed production.head = .ok next)
      (present : next.isNone = false) :
      Warrants table store views (.reduce state (.production production))
  | accept
      {state token : Value}
      {kind : String}
      (top : views.path.getLast? = some state)
      (lookahead : views.pending.head? = some token)
      (named : token.kind? = some kind)
      (entry :
        table.action store state (.text kind) = .ok (.action (.accept .direct))) :
      Warrants table store views (.accept state)

end Views

namespace Situation

/-- The views of a parser in a situation. -/
def views
    (situation : Situation) :
    Views :=
  ⟨situation.states.reverse, situation.symbols.reverse.drop 1,
    situation.pending⟩

theorem views_push
    {states pending : List Value}
    {symbols : List Symbol}
    (filled : symbols ≠ [])
    (symbol : Symbol)
    (state : Value) :
    views ⟨state :: states, symbol :: symbols, pending⟩ =
      (views ⟨states, symbols, pending⟩).push symbol state := by
  have enough : 1 ≤ symbols.reverse.length := by
    rw [List.length_reverse]
    exact List.length_pos_iff.mpr filled
  simp only [views, Views.push, List.reverse_cons,
    List.drop_append_of_le_length enough]

theorem views_pop
    (states pending : List Value)
    (symbols : List Symbol)
    (depth : Nat) :
    views ⟨states.drop depth, symbols.drop depth, pending⟩ =
      (views ⟨states, symbols, pending⟩).pop depth := by
  simp only [views, Views.pop, List.reverse_drop, List.drop_take,
    List.length_reverse, List.length_drop, Nat.sub_right_comm]

variable
  {table : Table}
  {store : Store}
  {situation next : Situation}
  {decision : Decision}

/-- Counted from the top, a state stands on the path where it stands on the stack. -/
theorem getElem?_path
    {state : Value}
    {depth : Nat}
    (found : situation.states[depth]? = some state) :
    depth < situation.views.path.length ∧
      situation.views.path[situation.views.path.length - 1 - depth]? =
        some state := by
  obtain ⟨inside, _⟩ := List.getElem?_eq_some_iff.mp found
  have same : situation.views.path.length = situation.states.length :=
    List.length_reverse
  refine ⟨by rw [same]; exact inside, ?_⟩
  change
    situation.states.reverse[situation.states.reverse.length - 1 - depth]? =
      some state
  rw [List.length_reverse, List.getElem?_reverse (by omega), ← found]
  congr 1
  omega

namespace Sanctions

theorem top_path
    {state : Value}
    (top : situation.states.head? = some state) :
    situation.views.path.getLast? = some state := by
  rw [views, List.getLast?_reverse]
  exact top

/-- An action is sanctioned only where its event is due. -/
theorem warrants
    (sanctioned : situation.Sanctions table store decision) :
    situation.views.Warrants table store decision.event := by
  cases sanctioned with
  | shift top lookahead named entry =>
      exact .shift (top_path top) lookahead named entry
  | reduce top lookahead named entry shallow exposes goto present =>
      obtain ⟨deep, exposesOnPath⟩ := getElem?_path exposes
      exact .reduce (top_path top) lookahead named entry deep exposesOnPath goto
        present
  | accept top lookahead named entry =>
      exact .accept (top_path top) lookahead named entry

/-- Carrying out a sanctioned action makes of the views what its event says. -/
theorem views_after
    (sanctioned : situation.Sanctions table store decision)
    (moves : Moves decision situation next)
    (filled : situation.symbols ≠ []) :
    situation.views.after table store decision.event = some next.views := by
  cases moves with
  | @shift state target first token states pending symbols =>
      cases sanctioned with
      | shift top lookahead named entry =>
          cases named
          change table.action store state (.text token.kind) = _ at entry
          simp only [Decision.event, Views.after, entry]
          rw [← views_push filled]
          rfl
  | @reduce state target production head states pending symbols headed =>
      cases sanctioned with
      | @reduce _ _ exposed _ _ _ top lookahead named entry shallow exposes
          goto present =>
          have remaining : (symbols.drop production.length) ≠ [] := by
            rw [ne_eq, List.drop_eq_nil_iff]
            exact Nat.not_le_of_lt shallow
          have left :
              ((views ⟨states, symbols, pending⟩).pop
                  production.length).path.getLast? = some exposed := by
            rw [← views_pop]
            apply top_path
            rw [List.head?_drop]
            exact exposes
          rw [headed] at goto
          simp only [Decision.event, Views.after, headed, left, goto]
          rw [← views_pop, ← views_push remaining]
  | accept => rfl

end Sanctions

end Situation

end ShiftReduce
