import ShiftReduce.Grammar.Nullable
import ShiftReduce.Proofs.Run.Confined
import ShiftReduce.Proofs.Table.Entry

namespace ShiftReduce

/-!
# The forest that events rebuild

What observers hear is enough to rebuild the parse.  A shift adds a leaf to a
stack of trees, and a reduction gathers the trees of its body under a node.  At
any time between two actions the roots of the trees are the symbols of the
parser, and the leaves from left to right, followed by what is still pending, are
the input (`Run.forest_mirrors_parse`).  Nothing is asked of the bodies of rules.
-/

/-- A token, or a non-terminal above the trees that it stands for. -/
inductive ParseTree where
  | leaf (token : Token)
  | node (head : NonTerminal) (children : List ParseTree)

namespace ParseTree

/-- The symbol at the root of a tree. -/
def root :
    ParseTree → Symbol
  | .leaf token => .token token
  | .node head _ => .nonterminal head

mutual

/-- The tokens at the leaves of a tree, from left to right. -/
def leaves :
    ParseTree → List Token
  | .leaf token => [token]
  | .node _ children => leavesOf children
termination_by structural tree => tree

/-- The tokens at the leaves of several trees, from left to right. -/
def leavesOf :
    List ParseTree → List Token
  | [] => []
  | tree :: rest => tree.leaves ++ leavesOf rest
termination_by structural trees => trees

end

/--
What an event makes of a stack of trees, top first.

There is no answer where a reduction needs more trees than there are, nor where
an event is about something that is no token or no rule with a proper head.
-/
def grow
    (trees : List ParseTree) :
    Event → Option (List ParseTree)
  | .shift _ (.token token) => some (.leaf token :: trees)
  | .reduce _ (.production production) =>
      match production.head with
      | .nonterminal head =>
          if production.length ≤ trees.length then
            some
              (.node head (trees.take production.length).reverse ::
                trees.drop production.length)
          else
            none
      | _ => none
  | .accept _ => some trees
  | _ => none

/-- The stack of trees that events rebuild from nothing, top first. -/
def forest? :
    List Event → Option (List ParseTree) :=
  List.foldlM grow []

/-- The leaves of trees side by side are those of the one after those of the other. -/
theorem leavesOf_append
    (first second : List ParseTree) :
    leavesOf (first ++ second) = leavesOf first ++ leavesOf second := by
  induction first with
  | nil =>
      rfl
  | cons tree rest inductionHypothesis =>
      simp [leavesOf, inductionHypothesis]

/-- One more event grows the forest of the events before it. -/
theorem forest?_append
    {events : List Event}
    {trees : List ParseTree}
    (before : forest? events = some trees)
    (event : Event) :
    forest? (events ++ [event]) = grow trees event := by
  unfold forest? at before ⊢
  rw [List.foldlM_append, before]
  simp

/--
A stack of trees mirrors a parse of an input: its roots are the symbols above the
bottom marker, and its leaves are what has been consumed.
-/
structure Mirrors
    (input : List Token)
    (trees : List ParseTree)
    (situation : Situation) :
    Prop where
  roots : situation.symbols = trees.map root ++ [Parser.bottomMarker]
  consumed :
    (leavesOf trees.reverse).map Value.token ++ situation.pending =
      input.map Value.token

/--
A stack of trees shows what a parser shows of a parse: the roots are its symbols,
and the leaves with what is pending are the input.
-/
structure Shows
    (input : List Token)
    (trees : List ParseTree)
    (parser : Parser) :
    Prop where
  roots : trees.reverse.map root = parser.recognised
  consumed :
    (leavesOf trees.reverse).map Value.token ++ parser.pending =
      input.map Value.token

/-- What mirrors a parse shows it. -/
theorem Mirrors.shows
    {input : List Token}
    {trees : List ParseTree}
    {parser : Parser}
    (mirrors : Mirrors input trees parser.situation) :
    Shows input trees parser where
  roots := by
    have roots : parser.symbols = trees.map root ++ [Parser.bottomMarker] :=
      mirrors.roots
    simp [Parser.recognised, roots]
  consumed := mirrors.consumed

/-- An event of a sanctioned action never asks for more trees than there are. -/
theorem Mirrors.grows
    {input : List Token}
    {trees : List ParseTree}
    {situation : Situation}
    {table : Table}
    {store : Store}
    {decision : Decision}
    (mirrors : Mirrors input trees situation)
    (sanctioned : situation.Sanctions table store decision)
    (headed :
      ∀ state production next,
        decision = .reduce state production next →
          ∃ head, production.head = .nonterminal head) :
    ∃ grown, grow trees decision.event = some grown := by
  cases sanctioned with
  | @shift state token next kind top lookahead named entry =>
      obtain ⟨rest, queue⟩ := List.head?_eq_some_iff.mp lookahead
      have member : token ∈ input.map Value.token := by
        rw [← mirrors.consumed, queue]
        simp
      obtain ⟨carried, _, rfl⟩ := List.mem_map.mp member
      exact ⟨_, rfl⟩
  | @reduce state token exposed next kind production top lookahead named entry
      shallow exposes goto present =>
      obtain ⟨head, headIs⟩ := headed state production next rfl
      have enough : production.length ≤ trees.length := by
        rw [mirrors.roots] at shallow
        simp only [List.length_append, List.length_map,
          List.length_singleton] at shallow
        omega
      refine
        ⟨.node head (trees.take production.length).reverse ::
          trees.drop production.length, ?_⟩
      simp [Decision.event, grow, headIs, enough]
  | accept top lookahead named entry =>
      exact ⟨trees, rfl⟩

/-- Folding the topmost trees into one leaves the leaves in their order. -/
theorem leavesOf_folded
    (trees : List ParseTree)
    (head : NonTerminal)
    (depth : Nat) :
    leavesOf
        (.node head (trees.take depth).reverse :: trees.drop depth).reverse =
      leavesOf trees.reverse := by
  calc
    leavesOf
        (.node head (trees.take depth).reverse :: trees.drop depth).reverse =
        leavesOf (trees.drop depth).reverse ++
          leavesOf (trees.take depth).reverse := by
      simp [leavesOf_append, leavesOf, leaves]
    _ = leavesOf trees.reverse := by
      rw [← leavesOf_append, ← List.reverse_append, List.take_append_drop]

/-- The event of an action makes of the trees what the action makes of the situation. -/
theorem Mirrors.moves
    {input : List Token}
    {trees : List ParseTree}
    {situation next : Situation}
    {table : Table}
    {store : Store}
    {decision : Decision}
    (mirrors : Mirrors input trees situation)
    (sanctioned : situation.Sanctions table store decision)
    (moved : Situation.Moves decision situation next) :
    ∃ grown, grow trees decision.event = some grown ∧ Mirrors input grown next := by
  cases moved with
  | @shift state target first token states pending symbols =>
      have isLookahead : first = .token token := by
        cases sanctioned with
        | shift top lookahead named entry =>
            simpa using lookahead
      subst isLookahead
      refine ⟨.leaf token :: trees, rfl, ?_, ?_⟩
      · simpa [root] using mirrors.roots
      · have consumed := mirrors.consumed
        simp only [List.reverse_cons, leavesOf_append, leavesOf, leaves,
          List.map_append, List.append_assoc]
        simpa using consumed
  | @reduce state target production head states pending symbols headed =>
      have roots := mirrors.roots
      have enough : production.length ≤ trees.length := by
        cases sanctioned with
        | reduce top lookahead named entry shallow exposes goto present =>
            rw [mirrors.roots] at shallow
            simp only [List.length_append, List.length_map,
              List.length_singleton] at shallow
            omega
      refine
        ⟨.node head (trees.take production.length).reverse ::
          trees.drop production.length, ?_, ?_, ?_⟩
      · simp [Decision.event, grow, headed, enough]
      · change symbols = trees.map root ++ [Parser.bottomMarker] at roots
        change
          .nonterminal head :: symbols.drop production.length =
            (.node head (trees.take production.length).reverse ::
              trees.drop production.length).map root ++ [Parser.bottomMarker]
        rw [roots, List.drop_append_of_le_length (by simpa using enough)]
        simp [root, List.map_drop]
      · rw [leavesOf_folded]
        exact mirrors.consumed
  | accept =>
      exact ⟨trees, rfl, mirrors⟩

end ParseTree

/-- Whether an entry reduces by a rule with a non-terminal for a head, if by any. -/
def Value.hasProperHead :
    Value → Bool
  | .action (.reduce _ (.production ⟨_, .nonterminal _, _, _⟩)) => true
  | .action (.reduce _ (.production _)) => false
  | _ => true

/-- The rules that a table reduces by have non-terminals for heads. -/
def Table.HasProperHeads
    (table : Table) :
    Prop :=
  ∀ cell ∈ table.actions, cell.entry.hasProperHead = true

instance
    (table : Table) :
    Decidable table.HasProperHeads :=
  inferInstanceAs
    (Decidable (∀ cell ∈ table.actions, cell.entry.hasProperHead = true))

/-- Every rule that such a table answers with has a non-terminal for a head. -/
theorem Table.HasProperHeads.headed
    {table : Table}
    {store : Store}
    {state column : Value}
    {lineage : Lineage}
    {production : Production}
    (proper : table.HasProperHeads)
    (entry :
      table.action store state column =
        .ok (.action (.reduce lineage (.production production)))) :
    ∃ head, production.head = .nonterminal head := by
  rcases Table.action_mem entry with missing | ⟨cell, member, same⟩
  · simp at missing
  · have headed := proper cell member
    rw [same] at headed
    rcases production with ⟨identity, head, body, index⟩
    cases head with
    | nonterminal carried => exact ⟨carried, rfl⟩
    | _ => cases headed

/-- Every reduction that such a table sanctions has a non-terminal to push. -/
theorem Situation.Sanctions.headed
    {table : Table}
    {store : Store}
    {situation : Situation}
    {decision : Decision}
    (sanctioned : situation.Sanctions table store decision)
    (proper : table.HasProperHeads)
    (state : Value)
    (production : Production)
    (next : Value)
    (reduces : decision = .reduce state production next) :
    ∃ head, production.head = .nonterminal head := by
  subst reduces
  cases sanctioned with
  | reduce top lookahead named entry shallow exposes goto present =>
      exact proper.headed entry

namespace Run

variable
  {ω : Type}
  {deliver : Deliver ω}
  {table : Table}
  {start : Frame ω}
  {observer : String}
  {heard : ω → List Event}

/-- The trees that an observer has heard of mirror the parse of an input. -/
def Mirrored
    (input : List Token)
    (heard : ω → List Event)
    (frame : Frame ω) :
    Prop :=
  ∃ trees,
    ParseTree.forest? (heard frame.world) = some trees ∧
      ParseTree.Mirrors input trees frame.situation

/-- Every action of a run keeps the mirror true. -/
theorem performs_mirrored
    {input : List Token}
    (undisturbed : Undisturbed deliver (.table table) start)
    (records :
      Records deliver (.table table) start observer (fun event => [event]) heard)
    {before after : Frame ω}
    {decision : Decision}
    (reaches : Reaches deliver (.table table) start before)
    (mirrored : Mirrored input heard before)
    (performs : Performs deliver (.table table) before decision after) :
    Mirrored input heard after := by
  obtain ⟨trees, rebuilt, mirrors⟩ := mirrored
  obtain ⟨sanctioned, moved⟩ := undisturbed.moves reaches performs
  obtain ⟨grown, grows, mirrors⟩ := mirrors.moves sanctioned moved
  refine ⟨grown, ?_, mirrors⟩
  rw [records.performs reaches performs, ParseTree.forest?_append rebuilt]
  exact grows

/--
What an observer has heard accounts for a parse: the events of all actions that were
carried out rebuild it.  At most one event more has been heard, and even that one
finds as many trees as it needs.
-/
structure Accounts
    (input : List Token)
    (parser : Parser)
    (heard unfinished : List Event) :
    Prop where
  rebuilt :
    ∃ events trees,
      heard = events ++ unfinished ∧
        ParseTree.forest? events = some trees ∧
        ParseTree.Shows input trees parser
  atMostOne : unfinished.length ≤ 1
  grows : (ParseTree.forest? heard).isSome

/-- While the mirror is true, nothing is unfinished. -/
theorem Mirrored.accounts
    {input : List Token}
    {frame : Frame ω}
    (mirrored : Mirrored input heard frame) :
    Accounts input frame.parser (heard frame.world) [] := by
  obtain ⟨trees, rebuilt, mirrors⟩ := mirrored
  exact ⟨⟨heard frame.world, trees, by simp, rebuilt, mirrors.shows⟩,
    by simp, by simp [rebuilt]⟩

theorem Mirrored.spares
    {input : List Token}
    {before after : Frame ω}
    (mirrored : Mirrored input heard before)
    (spares : before.Spares after)
    (unheard : heard after.world = heard before.world) :
    Mirrored input heard after := by
  obtain ⟨trees, rebuilt, mirrors⟩ := mirrored
  refine ⟨trees, ?_, ?_⟩
  · rw [unheard]
    exact rebuilt
  · rw [spares.situation]
    exact mirrors

/-- When observers are kept from hearing of an action, its event is unfinished at most. -/
theorem interrupted_accounts
    {input : List Token}
    (proper : table.HasProperHeads)
    (undisturbed : Undisturbed deliver (.table table) start)
    (records :
      Records deliver (.table table) start observer (fun event => [event]) heard)
    {before shown after : Frame ω}
    {decision : Decision}
    {halt : Halt}
    (reaches : Reaches deliver (.table table) start before)
    (mirrored : Mirrored input heard before)
    (decides : Decides (.table table) before decision shown)
    (interrupted : notify deliver decision.event shown = .error halt after) :
    ∃ unfinished,
      Accounts input after.parser (heard after.world) unfinished := by
  have spares := undisturbed.notify_spares reaches decides
  rw [frameAfter_of_error interrupted] at spares
  rcases records.interrupted reaches decides interrupted with missed | noted
  · exact ⟨[], (mirrored.spares spares missed).accounts⟩
  · obtain ⟨trees, rebuilt, mirrors⟩ := mirrored
    obtain ⟨grown, grows⟩ :=
      mirrors.grows decides.sanctioned (decides.sanctioned.headed proper)
    have still : ParseTree.Mirrors input trees after.situation := by
      rw [spares.situation]
      exact mirrors
    refine ⟨[decision.event],
      ⟨heard before.world, trees, noted, rebuilt, still.shows⟩, by simp, ?_⟩
    rw [noted, ParseTree.forest?_append rebuilt, grows]
    rfl

/-- Tokens and proper heads never keep an action from being carried out. -/
theorem never_broken
    {input : List Token}
    (proper : table.HasProperHeads)
    (undisturbed : Undisturbed deliver (.table table) start)
    {before shown told : Frame ω}
    {decision : Decision}
    {cause : Fault}
    {parser : Parser}
    (reaches : Reaches deliver (.table table) start before)
    (mirrored : Mirrored input heard before)
    (decides : Decides (.table table) before decision shown)
    (notified : notify deliver decision.event shown = .ok () told)
    (broken : Parser.commit decision told.parser = .error cause parser) :
    False := by
  obtain ⟨trees, rebuilt, mirrors⟩ := mirrored
  have headed := decides.sanctioned.headed proper
  obtain ⟨grown, grows⟩ := mirrors.grows decides.sanctioned headed
  have left := undisturbed.remains reaches decides notified broken
  generalize parser.situation = remaining at left
  cases left with
  | @shift state token next noToken =>
      cases token with
      | token carried => exact noToken carried rfl
      | _ => cases grows
  | reduce noHead =>
      obtain ⟨head, headIs⟩ := headed _ _ _ rfl
      exact noHead head headIs

/--
The events of a run rebuild the parse.

Between any two actions, the forest of the events heard so far shows what the
parser shows: the same symbols, and a frontier that is what has been consumed of
the input.  On every way out of a run, what was heard accounts for the parse; and
nothing is left unfinished unless somebody kept an action from being carried out.
-/
theorem forest_mirrors_parse
    {input : List Token}
    {frame : Frame ω}
    (loaded : frame.parser.Loaded table (input.map Value.token))
    (proper : table.HasProperHeads)
    (undisturbed : Undisturbed deliver (.table table) frame.begun)
    (records :
      Records deliver (.table table) frame.begun observer
        (fun event => [event]) heard)
    (unheard : heard frame.world = []) :
    (∀ between,
      Reaches deliver (.table table) frame.begun between →
        ∃ trees,
          ParseTree.forest? (heard between.world) = some trees ∧
            ParseTree.Shows input trees between.parser) ∧
    (∀ granted,
      ∃ unfinished,
        Accounts input
            (frameAfter (Run.start deliver granted) frame).parser
            (heard (frameAfter (Run.start deliver granted) frame).world)
            unfinished ∧
          (NotificationsEnd deliver (.table table) frame.begun →
            unfinished = [])) := by
  have initially : Mirrored input heard frame.begun := by
    refine ⟨[], ?_, ?_, ?_⟩
    · change ParseTree.forest? (heard frame.world) = some []
      rw [unheard]
      rfl
    · exact loaded.symbols
    · exact loaded.pending
  have step :
      ∀ {before decision after},
        Reaches deliver (.table table) frame.begun before →
          Mirrored input heard before →
          Performs deliver (.table table) before decision after →
            Mirrored input heard after :=
    performs_mirrored undisturbed records
  refine ⟨?_, ?_⟩
  · intro between reaches
    obtain ⟨trees, rebuilt, mirrors⟩ :=
      reaches.holds (Mirrored input heard) step initially
    exact ⟨trees, rebuilt, mirrors.shows⟩
  · intro granted
    let outside : Frame ω → Prop := fun after =>
      ∃ unfinished,
        Accounts input after.parser (heard after.world) unfinished ∧
          (NotificationsEnd deliver (.table table) frame.begun →
            unfinished = [])
    have refused : Mirrored input heard frame := initially
    change outside (frameAfter (Run.start deliver granted) frame)
    apply start_exits outside granted ⟨[], refused.accounts, fun _ => rfl⟩
    rw [loaded.held]
    apply drive_exits (Mirrored input heard) outside _ step _ _ granted .start
      initially
    · intro before after mirrored prints
      have still :=
        mirrored.spares prints.spares (congrArg heard prints.world)
      exact ⟨[], still.accounts, fun _ => rfl⟩
    · intro before decision shown halt after reaches mirrored decides interrupted
      obtain ⟨unfinished, accounts⟩ :=
        interrupted_accounts proper undisturbed records reaches mirrored decides
          interrupted
      refine ⟨unfinished, accounts, ?_⟩
      intro ends
      obtain ⟨told, notified⟩ := ends before decision shown reaches decides
      rw [notified] at interrupted
      cases interrupted
    · intro before decision shown told cause parser reaches mirrored decides
        notified broken
      exact
        (never_broken proper undisturbed reaches mirrored decides notified
          broken).elim

open Grammar in
/-- What is logged of a run through an empty reduction rebuilds the parse at any time. -/
theorem forest_mirrors_nullable :
    Nullable.table.HasProperHeads ∧
      ∀ granted,
        ∃ trees,
          ParseTree.forest?
              (frameAfter (Run.start (logging "log") granted)
                (.fresh Nullable.table
                  ([Token.ofKind "a", .endOfInput].map .token)
                  ["log"] [])).world =
              some trees ∧
            ParseTree.Shows [Token.ofKind "a", .endOfInput] trees
              (frameAfter (Run.start (logging "log") granted)
                (.fresh Nullable.table
                  ([Token.ofKind "a", .endOfInput].map .token)
                  ["log"] [])).parser := by
  have proper : Nullable.table.HasProperHeads := by
    decide
  refine ⟨proper, ?_⟩
  intro granted
  have mirrors :=
    forest_mirrors_parse
      (Frame.fresh_loaded Nullable.table
        ([Token.ofKind "a", .endOfInput].map .token) ["log"] [])
      proper
      (logging_confined "log" _ _).undisturbed
      (logging_records "log" _ _ (by decide))
      rfl
  obtain ⟨unfinished, accounts, none⟩ := mirrors.2 granted
  have finished : unfinished = [] := by
    apply none
    apply logging_notificationsEnd
    intro listener member
    exact ⟨"log", List.mem_singleton.mp member⟩
  subst finished
  obtain ⟨events, trees, heard, rebuilt, shows⟩ := accounts.rebuilt
  rw [List.append_nil] at heard
  rw [← heard] at rebuilt
  exact ⟨trees, rebuilt, shows⟩

end Run

end ShiftReduce
