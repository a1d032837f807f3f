import ShiftReduce.Proofs.Grammar.ExpressionHandle
import ShiftReduce.Proofs.Session.Expression

namespace ShiftReduce

/-!
# Reductions as a rightmost derivation in reverse

As long as every reduction finds the body of its rule on top of the stack, the rules
that a collector has collected are a rightmost derivation read backwards: it leads
from the symbols of the parser to the kinds of the tokens consumed so far
(`Run.reductions_reverse_rightmost_derivation`).  A shift adds a kind to the right end
of all forms of the derivation; a reduction puts a form before the first one.

With the table of expressions every reduction does find the body of its rule
(`Session.Prepared.findsBodies`).
-/

/-- The form that the symbols of a parser make up, from the bottom to the top. -/
def Parser.sententialForm
    (parser : Parser) :
    List Value :=
  parser.recognised.map Symbol.label

/-- The rule that a decision reduces by, if it does. -/
def Decision.rules :
    Decision → List Production
  | .reduce _ production _ => [production]
  | .shift .. => []
  | .accept _ => []

theorem Decision.rules_event
    (decision : Decision) :
    decision.event.rules = decision.rules.map Value.production := by
  cases decision with
  | shift => rfl
  | reduce => rfl
  | accept => rfl

/--
Rules read backwards derive the kinds of what has been consumed of an input from what
stands on a stack.
-/
structure Situation.Reverses
    (input : List Token)
    (rules : List Production)
    (stack : List Symbol)
    (consumed : List Token)
    (situation : Situation) :
    Prop where
  symbols : situation.symbols = stack ++ [Parser.bottomMarker]
  split : consumed.map Value.token ++ situation.pending = input.map Value.token
  derives :
    RightmostDerivation rules.reverse
      (stack.reverse.map Symbol.label)
      (consumed.map fun token => .text token.kind)

namespace Situation.Reverses

variable
  {input consumed : List Token}
  {rules : List Production}
  {stack : List Symbol}
  {situation next : Situation}

theorem form_eq
    {parser : Parser}
    (reverses : parser.situation.Reverses input rules stack consumed) :
    parser.sententialForm = stack.reverse.map Symbol.label := by
  have symbols : parser.symbols = stack ++ [Parser.bottomMarker] :=
    reverses.symbols
  simp [Parser.sententialForm, Parser.recognised, symbols]

/-- A shift adds a kind to all forms of the derivation. -/
theorem shift
    {token : Token}
    {rest : List Value}
    (reverses : situation.Reverses input rules stack consumed)
    (queue : situation.pending = .token token :: rest)
    (target : Value) :
    Reverses input rules (.token token :: stack) (consumed ++ [token])
      ⟨target :: situation.states, .token token :: situation.symbols, rest⟩ where
  symbols := by
    rw [reverses.symbols]
    rfl
  split := by
    rw [← reverses.split, queue]
    simp
  derives := by
    have extended := reverses.derives.append_kind token.kind
    simpa [Symbol.label] using extended

/-- A reduction that finds the body of its rule puts a form before the others. -/
theorem reduce
    {production : Production}
    {head : NonTerminal}
    (reverses : situation.Reverses input rules stack consumed)
    (headed : production.head = .nonterminal head)
    (found : production.body <:+ stack.reverse.map Symbol.label)
    (target : Value) :
    Reverses input (rules ++ [production])
      (.nonterminal head :: stack.drop production.length) consumed
      ⟨target :: situation.states.drop production.length,
        .nonterminal head :: situation.symbols.drop production.length,
        situation.pending⟩ := by
  obtain ⟨before, shape⟩ := found
  have lengths := congrArg List.length shape
  simp only [List.length_append, List.length_map, List.length_reverse]
    at lengths
  have shallow : production.length ≤ stack.length := by
    unfold Production.length
    omega
  have below :
      (stack.drop production.length).reverse.map Symbol.label = before := by
    have difference : stack.length - production.length = before.length := by
      unfold Production.length
      omega
    rw [List.reverse_drop, List.map_take, ← shape, difference, List.take_left]
  refine ⟨?_, reverses.split, ?_⟩
  · rw [reverses.symbols, List.drop_append_of_le_length shallow]
    rfl
  · have derives := reverses.derives
    rw [← shape] at derives
    have folded := derives.fold headed
    rw [List.reverse_append, List.reverse_singleton, List.singleton_append,
      List.reverse_cons, List.map_append, below]
    simpa [Symbol.label] using folded

/-- Every action keeps the rules a derivation in reverse. -/
theorem moves
    {table : Table}
    {store : Store}
    {decision : Decision}
    (reverses : situation.Reverses input rules stack consumed)
    (sanctioned : situation.Sanctions table store decision)
    (moved : Situation.Moves decision situation next)
    (found :
      ∀ production ∈ decision.rules,
        production.body <:+ stack.reverse.map Symbol.label) :
    ∃ stackNext consumedNext,
      next.Reverses input (rules ++ decision.rules) stackNext consumedNext := by
  cases moved with
  | @shift state target first token states pending symbols =>
      have isLookahead : first = .token token := by
        cases sanctioned with
        | shift top lookahead named entry => simpa using lookahead
      subst isLookahead
      rw [Decision.rules, List.append_nil]
      exact ⟨_, _, reverses.shift rfl target⟩
  | @reduce state target production head states pending symbols headed =>
      exact ⟨_, _,
        reverses.reduce headed (found production List.mem_cons_self) target⟩
  | accept =>
      rw [Decision.rules, List.append_nil]
      exact ⟨stack, consumed, reverses⟩

end Situation.Reverses

/--
What has been collected is a rightmost derivation in reverse, from the symbols of a
parser to the kinds of what it has consumed of an input.
-/
def Parser.ReversesDerivation
    (input : List Token)
    (collected : List Value)
    (parser : Parser) :
    Prop :=
  ∃ (rules : List Production) (consumed : List Token),
    collected = rules.map Value.production ∧
      consumed.map Value.token ++ parser.pending = input.map Value.token ∧
      RightmostDerivation rules.reverse parser.sententialForm
        (consumed.map fun token => .text token.kind)

namespace Run

variable
  {ω : Type}
  {deliver : Deliver ω}
  {table : Table}
  {start : Frame ω}
  {collector : String}
  {collected : ω → List Value}

/-- A collection of rules is a derivation in reverse between two actions of a run. -/
def Reversing
    (input : List Token)
    (collected : ω → List Value)
    (frame : Frame ω) :
    Prop :=
  ∃ rules stack consumed,
    collected frame.world = rules.map Value.production ∧
      frame.situation.Reverses input rules stack consumed

theorem Reversing.reversesDerivation
    {input : List Token}
    {frame : Frame ω}
    (reversing : Reversing input collected frame) :
    frame.parser.ReversesDerivation input (collected frame.world) := by
  obtain ⟨rules, stack, consumed, collects, reverses⟩ := reversing
  refine ⟨rules, consumed, collects, reverses.split, ?_⟩
  rw [reverses.form_eq]
  exact reverses.derives

theorem Reversing.prints
    {input : List Token}
    {before after : Frame ω}
    (reversing : Reversing input collected before)
    (prints : before.PrintsTo after) :
    Reversing input collected after := by
  unfold Reversing
  rw [prints.world, prints.situation]
  exact reversing

/-- Whenever the collector hears of a reduction, the body of the rule ends the form. -/
def FindsBodies
    (deliver : Deliver ω)
    (table : Table)
    (start : Frame ω)
    (collector : String) :
    Prop :=
  ∀ state production moment,
    Callback deliver (.table table) start collector
        (.reduce state (.production production)) moment →
      production.body <:+ moment.parser.sententialForm

/-- Every action of a run keeps the collection a derivation in reverse. -/
theorem performs_reversing
    {input : List Token}
    (undisturbed : Undisturbed deliver (.table table) start)
    (records :
      Records deliver (.table table) start collector Event.rules collected)
    (finds : FindsBodies deliver table start collector)
    {before after : Frame ω}
    {decision : Decision}
    (reaches : Reaches deliver (.table table) start before)
    (reversing : Reversing input collected before)
    (performs : Performs deliver (.table table) before decision after) :
    Reversing input collected after := by
  obtain ⟨rules, stack, consumed, collects, reverses⟩ := reversing
  obtain ⟨sanctioned, moved⟩ := undisturbed.moves reaches performs
  have grown := records.performs reaches performs
  have found :
      ∀ production ∈ decision.rules,
        production.body <:+ stack.reverse.map Symbol.label := by
    intro production member
    cases performs with
    | @intro shown told _ parser decides notified committed prints =>
        cases decision with
        | shift => cases member
        | accept => cases member
        | reduce state reduced target =>
            cases List.mem_singleton.mp member
            obtain ⟨moment, tells⟩ := records.tells reaches decides notified
            have spares := undisturbed.tells_spares reaches decides tells
            have atMoment :
                moment.situation.Reverses input rules stack consumed := by
              rw [spares.situation]
              exact reverses
            have ends :=
              finds state production moment (.intro reaches decides tells)
            rwa [Situation.Reverses.form_eq atMoment] at ends
  obtain ⟨stackNext, consumedNext, reversesNext⟩ :=
    reverses.moves sanctioned moved found
  refine ⟨rules ++ decision.rules, stackNext, consumedNext, ?_, reversesNext⟩
  rw [grown, collects, Decision.rules_event, List.map_append]

/--
The reductions of a run are a rightmost derivation in reverse.

This takes that the body of the rule lies on top of the stack whenever the collector
hears of a reduction.  Between any two actions, the collected rules read backwards,
each rewriting the last non-terminal, lead from the symbols of the parser to the kinds
of the tokens shifted so far.  So they do on every way out of a run in which no action
was cut short; and when a run accepts a single non-terminal, they derive the kinds of
all that was consumed from it.
-/
theorem reductions_reverse_rightmost_derivation
    {input : List Token}
    {frame : Frame ω}
    (loaded : frame.parser.Loaded table (input.map Value.token))
    (undisturbed : Undisturbed deliver (.table table) frame.begun)
    (records :
      Records deliver (.table table) frame.begun collector Event.rules collected)
    (uncollected : collected frame.world = [])
    (finds : FindsBodies deliver table frame.begun collector) :
    (∀ between,
      Reaches deliver (.table table) frame.begun between →
        between.parser.ReversesDerivation input (collected between.world)) ∧
    (∀ granted,
      (frameAfter (Run.start deliver granted) frame).parser.ReversesDerivation
          input
          (collected (frameAfter (Run.start deliver granted) frame).world) ∨
        CutShort deliver (.table table) frame.begun) ∧
    (∀ granted after head,
      Run.start deliver granted frame = .ok () after →
        after.parser.recognised = [.nonterminal head] →
          ∃ (rules : List Production) (consumed : List Token),
            collected after.world = rules.map Value.production ∧
              consumed.map Value.token ++ after.parser.pending =
                input.map Value.token ∧
              RightmostDerivation rules.reverse [.nonterminal head]
                (consumed.map fun token => .text token.kind)) := by
  have initially : Reversing input collected frame.begun := by
    refine ⟨[], [], [], uncollected, ?_, ?_, .done⟩
    · exact loaded.symbols
    · exact loaded.pending
  have step :
      ∀ {before decision after},
        Reaches deliver (.table table) frame.begun before →
          Reversing input collected before →
          Performs deliver (.table table) before decision after →
            Reversing input collected after :=
    performs_reversing undisturbed records finds
  refine ⟨?_, ?_, ?_⟩
  · intro between reaches
    exact
      (reaches.holds (Reversing input collected) step
        initially).reversesDerivation
  · intro granted
    let outside : Frame ω → Prop := fun after =>
      after.parser.ReversesDerivation input (collected after.world) ∨
        CutShort deliver (.table table) frame.begun
    change outside (frameAfter (Run.start deliver granted) frame)
    have refused : Reversing input collected frame := initially
    apply start_exits outside granted (.inl refused.reversesDerivation)
    rw [loaded.held]
    apply drive_exits (Reversing input collected) outside _ step _ _ granted
      .start initially
    · intro before after reversing prints
      exact .inl (reversing.prints prints).reversesDerivation
    · intro before decision shown halt after reaches _ decides interrupted
      exact .inr (cutShort_of_interrupted reaches decides interrupted)
    · intro before decision shown told cause parser reaches _ decides notified
        broken
      exact .inr (cutShort_of_broken reaches decides notified broken)
  · intro granted after head ended single
    have driven : drive deliver (.table table) granted frame.begun = .ok () after := by
      rw [← loaded.held]
      exact drive_of_start_ok ended
    obtain ⟨before, state, reaches, performs⟩ := drive_accepts .start driven
    have reversing :=
      step reaches (reaches.holds (Reversing input collected) step initially)
        performs
    obtain ⟨rules, consumed, collects, split, derives⟩ :=
      reversing.reversesDerivation
    refine ⟨rules, consumed, collects, split, ?_⟩
    rw [Parser.sententialForm, single] at derives
    exact derives

end Run

namespace Session

open Grammar

/-- With the table of expressions, every reduction finds the body of its rule. -/
theorem Prepared.findsBodies
    {collector : String}
    {text rest : List Token}
    {delimiter : Token}
    {frame : Frame Session}
    (prepared : Prepared collector (text ++ delimiter :: rest) frame)
    (delimited : Expression.Delimited text delimiter)
    (plain : ∀ token ∈ text ++ [delimiter], frame.store.IsPlain token.value)
    (perform : Step → Deed Report)
    (name : String) :
    Run.FindsBodies (delivery perform name) Expression.table frame.begun
      collector := by
  have attended := prepared.attended delimited perform name
  intro state production moment callback
  generalize isReduction :
    Event.reduce state (.production production) = event at callback
  cases callback with
  | @intro before shown _ decision _ reaches decides tells =>
      have spares := attended.undisturbed.tells_spares reaches decides tells
      obtain ⟨events, configuration, steps, stands⟩ :=
        reaches.stands Expression.table_orderly attended
          (Run.begun_stands Expression.table_orderly prepared.loaded attended
            plain)
      obtain ⟨consumed, top, log, parses⟩ := Expression.Parses.of_steps steps
      cases decides.sanctioned with
      | shift => cases isReduction
      | accept => cases isReduction
      | reduce topIs lookahead named entry =>
          cases isReduction
          obtain ⟨below, shape⟩ := configuration.states_eq
          rw [stands.situation, shape, parses.top_eq] at topIs
          cases topIs
          rw [Expression.table_orderly.action_eq _ rfl] at entry
          have spelled :=
            parses.builds.spells_body
              (Expression.reduces_of_entry (Except.ok.inj entry))
          have symbols :
              moment.parser.symbols =
                configuration.frames.map Prod.snd ++ [Parser.bottomMarker] :=
            congrArg Situation.symbols
              (spares.situation.trans stands.situation)
          rw [Parser.sententialForm, Parser.recognised, symbols]
          simpa [Expression.Builds.Spells, Function.comp_def] using spelled

open Expression in
/-- The rules collected from a sum of two names derive the sum, read backwards. -/
theorem sum_of_names_derived :
    ∃ after,
      performStep 13 ⟨"parser", .run, false⟩
          (ofExpression
            ([.ofKind "id", .ofKind "plus", .ofKind "id"] ++
              [Token.endOfInput])) =
          (.ok .nothing, after) ∧
        after.Collects "collector"
          ([Expression.name, multiplicand, summand, Expression.name,
              multiplicand, addition].map
            Value.production) ∧
        RightmostDerivation
          [addition, multiplicand, Expression.name, summand, multiplicand,
            Expression.name]
          [.nonterminal sum]
          [.text "id", .text "plus", .text "id"] := by
  have prepared :=
    (ofExpression_prepared
      ([.ofKind "id", .ofKind "plus", .ofKind "id"] ++
        [Token.endOfInput])).anew
  have delimited :
      Delimited [.ofKind "id", .ofKind "plus", .ofKind "id"]
        Token.endOfInput :=
    ⟨by decide, rfl⟩
  have plain :
      ∀ token ∈
          [.ofKind "id", .ofKind "plus", .ofKind "id"] ++ [Token.endOfInput],
        Store.empty.IsPlain token.value := by
    simp only [List.cons_append, List.nil_append, List.forall_mem_cons]
    exact ⟨rfl, rfl, rfl, rfl, by simp⟩
  have yields :
      ["id", "plus", "id"] =
        (Tree.named.ofFactor.ofProduct.add Tree.named.ofFactor).yield := by
    simp
  obtain ⟨perform, unfolded⟩ :=
    performStep_run
      (ofExpression
        ([.ofKind "id", .ofKind "plus", .ofKind "id"] ++ [Token.endOfInput]))
      "parser" false 13
  obtain ⟨last, ended, _, situation, collects⟩ :=
    prepared.accepts delimited plain (by decide : 4 * 3 < 13) _ yields perform
      "parser"
  rw [ended] at unfolded
  have reverses :=
    Run.reductions_reverse_rightmost_derivation prepared.loaded
      (collecting_confined prepared.begun).undisturbed
      (collecting_records prepared.begun) prepared.collects.collection_eq
      (prepared.findsBodies delimited plain perform "parser")
  have symbols :
      last.parser.symbols = [.nonterminal sum, Parser.bottomMarker] :=
    congrArg Situation.symbols situation
  have single : last.parser.recognised = [.nonterminal sum] := by
    rw [Parser.recognised, symbols]
    rfl
  obtain ⟨rules, consumed, collected, split, derives⟩ :=
    reverses.2.2 13 last sum ended single
  have pending : last.parser.pending = [Token.endOfInput].map Value.token :=
    congrArg Situation.pending situation
  have rulesAre :
      [Expression.name, multiplicand, summand, Expression.name, multiplicand,
        addition] = rules := by
    rw [collects.collection_eq] at collected
    have same := (List.map_inj_right fun _ _ => Value.production.inj).mp collected
    simpa using same
  have consumedAre :
      consumed = [.ofKind "id", .ofKind "plus", .ofKind "id"] := by
    rw [pending, ← List.map_append] at split
    have same := (List.map_inj_right fun _ _ => Value.token.inj).mp split
    exact List.append_cancel_right same
  subst rulesAre consumedAre
  have collectsRules :
      last.world.Collects "collector"
        ([Expression.name, multiplicand, summand, Expression.name,
            multiplicand, addition].map
          Value.production) := by
    simpa using collects
  exact ⟨_, unfolded, collectsRules, derives⟩

end Session

end ShiftReduce
