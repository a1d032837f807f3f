import ShiftReduce.Proofs.Grammar.ExpressionLanguage
import ShiftReduce.Proofs.Machine.Refinement
import ShiftReduce.Proofs.Session.Collector

namespace ShiftReduce.Session

open Grammar

/-!
# Sessions that parse expressions

A parser with the table of expressions accepts just the texts that have a
derivation, and its collector has then collected the rules of the derivation in
postorder, whichever derivation that is; any other text makes it refuse a token
(`parses_expressions`).  Either comes about within four turns for each token of the
text, and one more.
-/

/-- A parser of expressions is loaded with tokens, and a new collector listens to it. -/
structure Prepared
    (collector : String)
    (tokens : List Token)
    (frame : Frame Session) :
    Prop where
  loaded : frame.parser.Loaded Expression.table (tokens.map .token)
  unused : frame.parser.ran = false
  unaccepted : frame.parser.accepted = false
  alone : frame.parser.registry.listeners = [.observer collector]
  collects : frame.world.Collects collector []

theorem Prepared.begun
    {collector : String}
    {tokens : List Token}
    {frame : Frame Session}
    (prepared : Prepared collector tokens frame) :
    Collecting collector frame.begun :=
  ⟨prepared.alone, [], prepared.collects⟩

section Texts

variable
  {collector : String}
  {text rest : List Token}
  {delimiter : Token}
  {frame : Frame Session}
  {granted : Nat}

/-- A collector lets the run of a parser of expressions take its course. -/
theorem Prepared.attended
    (prepared : Prepared collector (text ++ delimiter :: rest) frame)
    (delimited : Expression.Delimited text delimiter)
    (perform : Step → Deed Report)
    (name : String) :
    Run.Attended (delivery perform name) Expression.table frame.begun
      (Machine.begin Expression.table (text ++ delimiter :: rest))
      (· ∈ text ++ [delimiter]) where
  undisturbed := (collecting_confined prepared.begun).undisturbed
  ends := collecting_notificationsEnd prepared.begun
  meets := by
    intro events reached steps token meets
    exact Expression.meets_text delimited steps meets
  keeps := by
    intro observer event moment callback token _ plain
    rw [(collecting_confined prepared.begun).store_eq callback]
    exact plain

/-- A text with a derivation is accepted, and the rules of the derivation are collected. -/
theorem Prepared.accepts
    (prepared : Prepared collector (text ++ delimiter :: rest) frame)
    (delimited : Expression.Delimited text delimiter)
    (plain : ∀ token ∈ text ++ [delimiter], frame.store.IsPlain token.value)
    (enough : 4 * text.length < granted)
    (tree : Expression.Tree Expression.sum)
    (yields : text.map Token.kind = tree.yield)
    (perform : Step → Deed Report)
    (name : String) :
    ∃ after,
      Run.start (delivery perform name) granted frame = .ok () after ∧
        after.parser.accepted = true ∧
        after.situation =
          Machine.Configuration.situation
            ⟨.int 0, [(.int 1, .nonterminal Expression.sum)],
              delimiter :: rest⟩ ∧
        after.world.Collects collector
          (tree.postorder.map Value.production) := by
  have attended := prepared.attended delimited perform name
  have concludes :=
    Run.start_concludes Expression.table_orderly prepared.loaded
      prepared.unused prepared.unaccepted attended plain granted
  have records :=
    Run.start_records Expression.table_orderly prepared.loaded prepared.unused
      attended plain (collecting_records prepared.begun) granted
  obtain ⟨left, collects⟩ :=
    collecting_exits ⟨prepared.alone, [], prepared.collects⟩ perform name
      granted
  obtain ⟨events, ends, rules⟩ :=
    Expression.run_accepts delimited tree yields enough rest
  rw [ends, collects.collection_eq, prepared.collects.collection_eq,
    List.nil_append, rules] at records
  rw [records] at collects
  rw [ends] at concludes
  generalize result :
    Run.start (delivery perform name) granted frame = ended at concludes
  cases concludes with
  | @accepted _ _ _ after situation verdict =>
      rw [Run.frameAfter_of_ok result] at collects
      exact ⟨after, rfl, verdict, situation, collects⟩

/-- A text without a derivation is refused. -/
theorem Prepared.refuses
    (prepared : Prepared collector (text ++ delimiter :: rest) frame)
    (delimited : Expression.Delimited text delimiter)
    (plain : ∀ token ∈ text ++ [delimiter], frame.store.IsPlain token.value)
    (enough : 4 * text.length < granted)
    (underivable :
      ¬ ∃ tree : Expression.Tree Expression.sum,
          text.map Token.kind = tree.yield)
    (perform : Step → Deed Report)
    (name : String) :
    ∃ state token expected after,
      Run.start (delivery perform name) granted frame =
          .error (.fault (.unexpectedToken state token expected)) after ∧
        after.parser.accepted = false := by
  have concludes :=
    Run.start_concludes Expression.table_orderly prepared.loaded
      prepared.unused prepared.unaccepted
      (prepared.attended delimited perform name) plain granted
  rcases Expression.run_decides delimited enough with derivable | refuses
  · exact (underivable derivable).elim
  · obtain ⟨refusing, refused, decided⟩ := refuses
    generalize
      Machine.run Expression.table granted
        (Machine.begin Expression.table (text ++ delimiter :: rest)) = ending
        at concludes decided
    generalize Run.start (delivery perform name) granted frame = result
      at concludes ⊢
    cases concludes with
    | refused situation verdict lookahead =>
        exact ⟨_, _, _, _, rfl, verdict⟩
    | accepted situation verdict => cases decided
    | stuck situation verdict => cases decided
    | unfinished situation verdict => cases decided

end Texts

section Steps

variable
  {session : Session}
  {name collector : String}
  {text rest : List Token}
  {delimiter : Token}
  {granted : Nat}

/-- The log and the trace of a session have no bearing on its parsers. -/
theorem Prepared.anew
    {tokens : List Token}
    (prepared : Prepared collector tokens (session.frame name)) :
    Prepared collector tokens
      (Session.frame { session with log := [], trace := [] } name) :=
  ⟨prepared.loaded, prepared.unused, prepared.unaccepted, prepared.alone,
    prepared.collects⟩

theorem performStep_accepts
    (prepared :
      Prepared collector (text ++ delimiter :: rest) (session.frame name))
    (delimited : Expression.Delimited text delimiter)
    (plain : ∀ token ∈ text ++ [delimiter], session.store.IsPlain token.value)
    (enough : 4 * text.length < granted)
    (caught : Bool)
    (tree : Expression.Tree Expression.sum)
    (yields : text.map Token.kind = tree.yield) :
    ∃ after,
      performStep granted ⟨name, .run, caught⟩ session =
          (.ok .nothing, after) ∧
        after.Collects collector (tree.postorder.map Value.production) ∧
        (after.parser name).accepted = true ∧
        (after.parser name).recognised = [.nonterminal Expression.sum] ∧
        (after.parser name).path = [.int 0, .int 1] ∧
        (after.parser name).pending = (delimiter :: rest).map .token := by
  obtain ⟨perform, unfolded⟩ := performStep_run session name caught granted
  obtain ⟨last, ends, accepted, situation, collects⟩ :=
    prepared.anew.accepts delimited plain enough tree yields perform name
  have states : last.parser.states = [.int 1, .int 0] :=
    congrArg Situation.states situation
  have symbols :
      last.parser.symbols =
        [.nonterminal Expression.sum, Parser.bottomMarker] :=
    congrArg Situation.symbols situation
  rw [ends] at unfolded
  refine ⟨_, unfolded, collects, ?_⟩
  rw [parser_ofFrame, Parser.recognised, Parser.path, states, symbols]
  exact ⟨accepted, rfl, rfl, congrArg Situation.pending situation⟩

theorem performStep_refuses
    (prepared :
      Prepared collector (text ++ delimiter :: rest) (session.frame name))
    (delimited : Expression.Delimited text delimiter)
    (plain : ∀ token ∈ text ++ [delimiter], session.store.IsPlain token.value)
    (enough : 4 * text.length < granted)
    (caught : Bool)
    (underivable :
      ¬ ∃ tree : Expression.Tree Expression.sum,
          text.map Token.kind = tree.yield) :
    ∃ state token expected after,
      performStep granted ⟨name, .run, caught⟩ session =
        (.error (.fault (.unexpectedToken state token expected)), after) := by
  obtain ⟨perform, unfolded⟩ := performStep_run session name caught granted
  obtain ⟨state, token, expected, last, ends, _⟩ :=
    prepared.anew.refuses delimited plain enough underivable perform name
  rw [ends] at unfolded
  exact ⟨state, token, expected, _, unfolded⟩

end Steps

/--
A parser with the table of expressions and a collector decides its grammar.

With more than four turns granted for each token of a text, a run on the text and the
end of the input accepts it just if it has a derivation.  It has then put the rules
of every derivation of the text into the collection, in postorder, so that there is
only one; it ends with a single sum on the stack, and with the end of the input and
all that comes after it still pending.  Any other run ends by refusing a token.
-/
theorem parses_expressions
    {session : Session}
    {name collector : String}
    {text rest : List Token}
    {delimiter : Token}
    {granted : Nat}
    (prepared :
      Prepared collector (text ++ delimiter :: rest) (session.frame name))
    (delimited : Expression.Delimited text delimiter)
    (plain : ∀ token ∈ text ++ [delimiter], session.store.IsPlain token.value)
    (enough : 4 * text.length < granted)
    (caught : Bool) :
    ((∃ after,
      performStep granted ⟨name, .run, caught⟩ session =
        (.ok .nothing, after)) ↔
      ∃ tree : Expression.Tree Expression.sum,
        text.map Token.kind = tree.yield) ∧
    (∀ after,
      performStep granted ⟨name, .run, caught⟩ session =
          (.ok .nothing, after) →
        (∀ tree : Expression.Tree Expression.sum,
          text.map Token.kind = tree.yield →
            after.Collects collector (tree.postorder.map Value.production)) ∧
        (after.parser name).accepted = true ∧
        (after.parser name).recognised = [.nonterminal Expression.sum] ∧
        (after.parser name).path = [.int 0, .int 1] ∧
        (after.parser name).pending = (delimiter :: rest).map .token) ∧
    (∀ first second : Expression.Tree Expression.sum,
      text.map Token.kind = first.yield →
        text.map Token.kind = second.yield →
          first = second) ∧
    ((¬ ∃ after,
      performStep granted ⟨name, .run, caught⟩ session =
        (.ok .nothing, after)) →
      ∃ state token expected after,
        performStep granted ⟨name, .run, caught⟩ session =
          (.error (.fault (.unexpectedToken state token expected)), after)) := by
  have accepts := performStep_accepts prepared delimited plain enough caught
  have refuses := performStep_refuses prepared delimited plain enough caught
  have derivable :
      ∀ after,
        performStep granted ⟨name, .run, caught⟩ session =
            (.ok .nothing, after) →
          ∃ tree : Expression.Tree Expression.sum,
            text.map Token.kind = tree.yield := by
    intro after ended
    by_cases derived :
        ∃ tree : Expression.Tree Expression.sum,
          text.map Token.kind = tree.yield
    · exact derived
    · obtain ⟨state, token, expected, other, refused⟩ := refuses derived
      rw [ended] at refused
      cases refused
  refine ⟨⟨?_, ?_⟩, ?_, ?_, ?_⟩
  · rintro ⟨after, ended⟩
    exact derivable after ended
  · rintro ⟨tree, yields⟩
    obtain ⟨after, ended, _⟩ := accepts tree yields
    exact ⟨after, ended⟩
  · intro after ended
    constructor
    · intro tree yields
      obtain ⟨_, same, collects, _⟩ := accepts tree yields
      rw [ended] at same
      cases same
      exact collects
    · obtain ⟨tree, yields⟩ := derivable after ended
      obtain ⟨_, same, _, stands⟩ := accepts tree yields
      rw [ended] at same
      cases same
      exact stands
  · intro first second firstYields secondYields
    exact Expression.derivation_unique delimited firstYields secondYields
  · intro unaccepted
    apply refuses
    rintro ⟨tree, yields⟩
    obtain ⟨after, ended, _⟩ := accepts tree yields
    exact unaccepted ⟨after, ended⟩

/-- A session in which a verbose parser of expressions has a collector. -/
def ofExpression
    (tokens : List Token) :
    Session :=
  .create .create
    [("collector", .create (.collector []))]
    [("parser",
      (Frame.fresh Expression.table (tokens.map .token) ["collector"]
        ()).parser)]
    (.empty .none)

theorem ofExpression_prepared
    (tokens : List Token) :
    Prepared "collector" tokens ((ofExpression tokens).frame "parser") where
  loaded := ⟨rfl, rfl, rfl, rfl⟩
  unused := rfl
  unaccepted := rfl
  alone := rfl
  collects := ⟨.none, rfl⟩

open Expression in
/-- A product with a sum in parentheses is accepted, whatever comes after the end. -/
theorem parses_product_of_sum :
    ∃ after,
      performStep 29 ⟨"parser", .run, false⟩
          (ofExpression
            ([.plain "id" (.list [.int 1]), .ofKind "star", .ofKind "lparen",
                .ofKind "id", .ofKind "plus", .ofKind "id",
                .ofKind "rparen"] ++
              Token.endOfInput :: [.ofKind "plus", .endOfInput])) =
          (.ok .nothing, after) ∧
        after.Collects "collector"
          ([Expression.name, multiplicand, Expression.name, multiplicand,
              summand, Expression.name, multiplicand, addition, parenthesised,
              multiplication, summand].map
            Value.production) := by
  have decides :=
    parses_expressions
      (ofExpression_prepared
        ([.plain "id" (.list [.int 1]), .ofKind "star", .ofKind "lparen",
            .ofKind "id", .ofKind "plus", .ofKind "id", .ofKind "rparen"] ++
          Token.endOfInput :: [.ofKind "plus", .endOfInput]))
      ⟨by decide, rfl⟩
      (by
        simp only [List.cons_append, List.nil_append, List.forall_mem_cons]
        exact ⟨rfl, rfl, rfl, rfl, rfl, rfl, rfl, rfl, by simp⟩)
      (by decide : 4 * 7 < 29)
      false
  have yields :
      ["id", "star", "lparen", "id", "plus", "id", "rparen"] =
        (Tree.named.ofFactor.multiply
          (Tree.named.ofFactor.ofProduct.add
            Tree.named.ofFactor).enclose).ofProduct.yield := by
    simp
  obtain ⟨after, ended⟩ := decides.1.mpr ⟨_, yields⟩
  have collects := (decides.2.1 after ended).1 _ yields
  refine ⟨after, ended, ?_⟩
  simpa using collects

end ShiftReduce.Session
