import ShiftReduce.Grammar.Single
import ShiftReduce.Proofs.Run.Confined
import ShiftReduce.Proofs.Table.Path

namespace ShiftReduce

/-!
# The path of a parser at work

The states of a parser are at any time the path that its symbols spell, edge by
edge (`Run.states_spelled_by_symbols`).

This takes a table whose answers stay what they are.  Only observers can change
what lies in the store while a run is going on, so it is enough that they leave
the answers alone (`Run.AnswersStay`).
-/

/--
The states of a parser are the path that its symbols spell.

The views from the bottom to the top have one state more than symbols, begin
with the initial state, and every symbol connects the states beside it.
-/
structure Parser.Spells
    (table : Table)
    (store : Store)
    (parser : Parser) :
    Prop where
  length : parser.path.length = parser.recognised.length + 1
  initial : parser.path.head? = some table.initial
  connects :
    ∀ index symbol,
      parser.recognised[index]? = some symbol →
        ∃ source target,
          parser.path[index]? = some source ∧
            parser.path[index + 1]? = some target ∧
            table.Connects store source symbol target
  bottom : parser.symbols.getLast? = some Parser.bottomMarker

/-- Stacks that make up a path are spelled by their symbols. -/
theorem Parser.spells_of_path
    {table : Table}
    {store : Store}
    {parser : Parser}
    (path : table.Path store parser.states parser.symbols) :
    parser.Spells table store where
  length := by
    have sameLength := path.length_eq
    have marked := path.getLast_symbols
    have filled : 0 < parser.symbols.length := by
      cases symbols : parser.symbols with
      | nil =>
          simp [symbols] at marked
      | cons symbol rest =>
          simp
    simp only [Parser.path, Parser.recognised, List.length_reverse,
      List.length_drop]
    omega
  initial := by
    rw [Parser.path, List.head?_reverse]
    exact path.getLast_states
  connects := fun _ _ found => path.connects found
  bottom := path.getLast_symbols

namespace Run

variable
  {ω : Type}
  {deliver : Deliver ω}
  {table : Table}
  {start : Frame ω}

/-- No callback of a run changes what the table answers about its states. -/
def AnswersStay
    (deliver : Deliver ω)
    (table : Table)
    (start : Frame ω) :
    Prop :=
  ∀ name event moment,
    Callback deliver (.table table) start name event moment →
      table.SameAnswers moment.store
        (frameAfter (deliver name event) moment).store

/-- The stacks of a parser at work make up a path. -/
def OnPath
    (table : Table)
    (frame : Frame ω) :
    Prop :=
  table.Path frame.store frame.situation.states frame.situation.symbols

/-- A path stays one as long as neither the parse nor the answers change. -/
theorem OnPath.transfer
    {before after : Frame ω}
    (onPath : OnPath table before)
    (spares : before.Spares after)
    (same : table.SameAnswers before.store after.store) :
    OnPath table after := by
  unfold OnPath
  rw [spares.situation]
  exact Table.Path.transfer onPath same

/-- A path stays one when something is printed. -/
theorem OnPath.prints
    {before after : Frame ω}
    (onPath : OnPath table before)
    (prints : before.PrintsTo after) :
    OnPath table after := by
  apply onPath.transfer prints.spares
  rw [prints.store]
  exact .refl table before.store

/-- Telling the observers of a decision does not change the answers. -/
theorem AnswersStay.notify
    (stay : AnswersStay deliver table start)
    {before shown : Frame ω}
    {decision : Decision}
    (reaches : Reaches deliver (.table table) start before)
    (decides : Decides (.table table) before decision shown) :
    table.SameAnswers before.store
      (frameAfter (notify deliver decision.event) shown).store := by
  rw [← decides.printsTo.store]
  exact notify_relates
    (fun earlier later => table.SameAnswers earlier.store later.store)
    (fun frame => .refl table frame.store)
    (fun first second => first.trans second)
    stay reaches decides

/-- The answers have not changed by the time an observer is told. -/
theorem AnswersStay.tells
    (stay : AnswersStay deliver table start)
    {before shown moment : Frame ω}
    {decision : Decision}
    {name : String}
    (reaches : Reaches deliver (.table table) start before)
    (decides : Decides (.table table) before decision shown)
    (tells :
      Tells deliver decision.event shown.parser.registry.listeners shown
        name moment) :
    table.SameAnswers before.store moment.store := by
  rw [← decides.printsTo.store]
  exact tells_relates
    (fun earlier later => table.SameAnswers earlier.store later.store)
    (fun frame => .refl table frame.store)
    (fun first second => first.trans second)
    stay reaches decides tells

/-- Every action of a run leads from a path to a path. -/
theorem performs_onPath
    (undisturbed : Undisturbed deliver (.table table) start)
    (stay : AnswersStay deliver table start)
    {before after : Frame ω}
    {decision : Decision}
    (reaches : Reaches deliver (.table table) start before)
    (onPath : OnPath table before)
    (performs : Performs deliver (.table table) before decision after) :
    OnPath table after := by
  obtain ⟨sanctioned, moved⟩ := undisturbed.moves reaches performs
  have path :
      table.Path before.store after.situation.states after.situation.symbols :=
    Table.Path.moves onPath sanctioned moved
  cases performs with
  | @intro shown told _ parser decides notified committed prints =>
      have same := stay.notify reaches decides
      rw [frameAfter_of_ok notified] at same
      unfold OnPath
      rw [prints.store]
      exact path.transfer same

/--
The states are the path that the symbols spell, at every moment of a run and on
every way out of it.

The tokens, the heads of rules and the observers may be anything: a run that ends
because a token or a head cannot be put on the stack, or because an observer
fails, leaves a path as any other run does.
-/
theorem states_spelled_by_symbols
    {tokens : List Value}
    {frame : Frame ω}
    (loaded : frame.parser.Loaded table tokens)
    (undisturbed : Undisturbed deliver (.table table) frame.begun)
    (stay : AnswersStay deliver table frame.begun) :
    (∀ between,
      Reaches deliver (.table table) frame.begun between →
        between.parser.Spells table between.store) ∧
    (∀ name event moment,
      Callback deliver (.table table) frame.begun name event moment →
        moment.parser.Spells table moment.store) ∧
    (∀ granted,
      (frameAfter (Run.start deliver granted) frame).parser.Spells table
        (frameAfter (Run.start deliver granted) frame).store) := by
  have initially : OnPath table frame.begun := by
    change table.Path frame.store frame.parser.states frame.parser.symbols
    rw [loaded.states, loaded.symbols]
    exact .bottom
  have step :
      ∀ {before decision after},
        Reaches deliver (.table table) frame.begun before →
          OnPath table before →
          Performs deliver (.table table) before decision after →
            OnPath table after :=
    performs_onPath undisturbed stay
  refine ⟨?_, ?_, ?_⟩
  · intro between reaches
    exact Parser.spells_of_path (reaches.holds (OnPath table) step initially)
  · intro name event moment callback
    have onPath : OnPath table moment := by
      refine callback.holds (OnPath table) (OnPath table) step ?_ initially
      intro before decision shown name moment reaches onPath decides tells
      exact onPath.transfer
        (undisturbed.tells_spares reaches decides tells)
        (stay.tells reaches decides tells)
    exact Parser.spells_of_path onPath
  · intro granted
    have onPath :
        OnPath table (frameAfter (Run.start deliver granted) frame) := by
      have refused : OnPath table frame := initially
      apply start_exits (OnPath table) granted refused
      rw [loaded.held]
      apply drive_exits (OnPath table) (OnPath table) _ step _ _ granted .start
        initially
      · intro before after onPath prints
        exact onPath.prints prints
      · intro before decision shown halt after reaches onPath decides interrupted
        have spares := undisturbed.notify_spares reaches decides
        have same := stay.notify reaches decides
        rw [frameAfter_of_error interrupted] at spares same
        exact onPath.transfer spares same
      · intro before decision shown told cause parser reaches onPath decides
          notified broken
        have same := stay.notify reaches decides
        rw [frameAfter_of_ok notified] at same
        have left := undisturbed.remains reaches decides notified broken
        exact (Table.Path.remains onPath decides.sanctioned left).transfer same
    exact Parser.spells_of_path onPath

/-- Observers that fail when they hear of a reduction. -/
def protesting : Deliver ω :=
  fun _ event =>
    match event with
    | .reduce .. => throw (.fault (.observerFailure "no"))
    | _ => pure ()

theorem protesting_confined
    (table : Value)
    (start : Frame ω) :
    Confined protesting table start := by
  intro name event moment _
  cases event with
  | shift state token => exact ⟨moment.world, rfl⟩
  | reduce state production => exact ⟨moment.world, rfl⟩
  | accept state => exact ⟨moment.world, rfl⟩

theorem Confined.answersStay
    (confined : Confined deliver (.table table) start) :
    AnswersStay deliver table start := by
  intro name event moment callback
  rw [confined.store_eq callback]
  exact .refl table moment.store

/-- An observer that fails before a reduction leaves the path to the shifted token. -/
theorem states_spelled_before_protest :
    ∃ after,
      Run.start protesting 2
          (.fresh Grammar.Single.table
            [.token (.ofKind "a"), .token .endOfInput] ["critic"] ()) =
          .error (.fault (.observerFailure "no")) after ∧
        after.parser.recognised = [.token (.ofKind "a")] ∧
        after.parser.Spells Grammar.Single.table after.store := by
  have confined :=
    protesting_confined (.table Grammar.Single.table)
      (Frame.begun
        (.fresh Grammar.Single.table
          [.token (.ofKind "a"), .token .endOfInput] ["critic"] ()))
  have spelled :=
    states_spelled_by_symbols
      (Frame.fresh_loaded Grammar.Single.table
        [.token (.ofKind "a"), .token .endOfInput] ["critic"] ())
      confined.undisturbed confined.answersStay
  exact ⟨_, rfl, rfl, spelled.2.2 2⟩

end Run

end ShiftReduce
