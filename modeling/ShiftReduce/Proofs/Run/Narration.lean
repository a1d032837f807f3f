import Mathlib.Data.List.Forall2
import ShiftReduce.Proofs.Run.Complaint

namespace ShiftReduce

/-!
# Traces tell what observers hear

A verbose parser shows its stacks, its lookahead and the action that it has selected before
it decides whether the action can be carried out, and its stacks once more after a reduction.
Observers hear of the action in between.  On a steadfast table the two accounts agree
(`Run.trace_tells_what_is_heard`): a run prints what belongs to each action that it
announces, in order, and then the turn on which it complains, if it does.

A block is resolved when it is printed.  So its text is that of the turn, whatever observers
do to the store later on.
-/

/-- The action of a table that a decision is made on. -/
def Decision.action :
    Decision → Value
  | .shift _ _ next => .action (.shift .direct next)
  | .reduce _ production _ => .action (.reduce .direct (.production production))
  | .accept _ => .action (.accept .direct)

/-- What is decided on is the action that was selected. -/
theorem Parser.decision_action
    {store : Store}
    {parser : Parser}
    {selection : Selection}
    {decision : Decision}
    (decided : parser.decision store selection = .ok decision) :
    selection.action = decision.action := by
  rcases decision_inversion decided with
      ⟨next, shape, rfl⟩ | ⟨production, next, shape, _, rfl⟩ | ⟨shape, rfl⟩
  · exact shape
  · exact shape
  · exact shape

namespace TraceBlock

/-- The line of an action, if a block is one. -/
def arrow? :
    TraceBlock → Option String
  | .action selected => some (text (.action selected))
  | _ => none

/-- The line of a lookahead, if a block is one. -/
def input? :
    TraceBlock → Option String
  | .lookahead token => some (text (.lookahead token))
  | _ => none

/-- The lines of actions in a trace, in order. -/
def arrows
    (blocks : List TraceBlock) :
    List String :=
  blocks.filterMap arrow?

/-- The lines of lookaheads in a trace, in order. -/
def inputs
    (blocks : List TraceBlock) :
    List String :=
  blocks.filterMap input?

/-- A block is printed to its end, and stacks from the bottom marker on with a state each. -/
def IsWhole
    (block : TraceBlock) :
    Prop :=
  block.misfit? = none ∧
    ∀ symbols states,
      block = .stack symbols states →
        symbols.head? = some Parser.bottomMarker ∧
          states.length = symbols.length

end TraceBlock

/-- A turn of which a verbose parser shows something: its frame, and the action selected. -/
structure Showing (ω : Type) where
  frame : Frame ω
  action : Value

/-- The stacks of a parser at work, as things stand. -/
def Frame.stackBlock
    {ω : Type}
    (frame : Frame ω) :
    TraceBlock :=
  frame.parser.stackBlock.resolve frame.store

/-- The token that a parser at work has before it. -/
def Frame.lookahead
    {ω : Type}
    (frame : Frame ω) :
    Value :=
  frame.parser.pending.headD .none

namespace Showing

variable {ω : Type}

/-- The block of the lookahead of a turn. -/
def lookaheadBlock
    (showing : Showing ω) :
    TraceBlock :=
  (TraceBlock.lookahead showing.frame.lookahead).resolve showing.frame.store

/-- The block of the action of a turn. -/
def actionBlock
    (showing : Showing ω) :
    TraceBlock :=
  (TraceBlock.action showing.action).resolve showing.frame.store

/-- What a verbose parser shows before it decides: stacks, lookahead and action. -/
def blocks
    (showing : Showing ω) :
    List TraceBlock :=
  [showing.frame.stackBlock, showing.lookaheadBlock, showing.actionBlock]

/-- A line is the arrow and the text of the action of a turn. -/
def HasArrow
    (showing : Showing ω)
    (line : String) :
    Prop :=
  ∃ text,
    (showing.frame.store.resolve showing.action).shown = .ok text ∧
      line = "   --> " ++ text ++ "\n"

/-- A line is the label and the text of the lookahead of a turn. -/
def HasInput
    (showing : Showing ω)
    (line : String) :
    Prop :=
  ∃ text,
    (showing.frame.store.resolve showing.frame.lookahead).shown = .ok text ∧
      line = "INPUT: " ++ text ++ "\n"

end Showing

namespace Run

variable
  {ω : Type}
  {deliver : Deliver ω}
  {table : Table}
  {input : List Token}
  {start frame before shown after : Frame ω}
  {decision : Decision}

namespace Announcement

/-- The turn on which an action is announced. -/
def showing
    (announced : Announcement ω) :
    Showing ω :=
  ⟨announced.frame, announced.decision.action⟩

/-- What is shown once an action is carried out: the stacks, if it is a reduction. -/
def outcomeBlocks
    (deliver : Deliver ω)
    (announced : Announcement ω) :
    List TraceBlock :=
  match announced.decision with
  | .reduce .. =>
      [(frameAfter (perform deliver announced.decision) announced.frame).stackBlock]
  | _ => []

/-- What a verbose parser shows of an action that it announces and carries out. -/
def blocks
    (deliver : Deliver ω)
    (announced : Announcement ω) :
    List TraceBlock :=
  announced.showing.blocks ++ announced.outcomeBlocks deliver

end Announcement

/--
How a run comes to its end, and the turns that it has shown without announcing an action.

There is such a turn just if the parser complains about it.
-/
inductive LastWords
    (table : Table)
    (last : Frame ω) :
    Option Halt → List (Showing ω) → Prop where
  | accepted
      (accepted : last.parser.accepted = true) :
      LastWords table last none []
  | exhausted
      {state : Value}
      (nothing : last.parser.pending = []) :
      LastWords table last
        (some (.fault (.malformedTable (.inputExhausted state)))) []
  | complained
      {selection : Selection}
      {cause : Fault}
      (selected :
        last.parser.select last.store (.table table) last.lookahead =
          .ok selection)
      (undecided : last.parser.decision last.store selection = .error cause)
      (complains : (last.store.settle cause).Complains) :
      LastWords table last (some (.fault (last.store.settle cause)))
        [⟨last, selection.action⟩]
  | unfinished :
      LastWords table last (some .outOfSteps) []

/-- No callback of a run writes in its trace or makes its parser quiet. -/
def TraceStays
    (deliver : Deliver ω)
    (table : Value)
    (start : Frame ω) :
    Prop :=
  ∀ name event moment,
    Callback deliver table start name event moment →
      (frameAfter (deliver name event) moment).trace = moment.trace ∧
        (moment.parser.verbose = true →
          (frameAfter (deliver name event) moment).parser.verbose = true)

theorem Confined.traceStays
    {table : Value}
    (confined : Confined deliver table start) :
    TraceStays deliver table start := by
  intro name event moment callback
  obtain ⟨world, same⟩ := confined name event moment callback
  rw [same]
  exact ⟨rfl, id⟩

/-- Telling the observers of an action leaves the trace as it is, and the parser verbose. -/
theorem TraceStays.notified
    {told : Frame ω}
    (stays : TraceStays deliver (.table table) start)
    (reaches : Reaches deliver (.table table) start before)
    (decides : Decides (.table table) before decision shown)
    (notified : notify deliver decision.event shown = .ok () told) :
    told.trace = shown.trace ∧
      (shown.parser.verbose = true → told.parser.verbose = true) := by
  have related :=
    notify_relates
      (fun earlier later =>
        later.trace = earlier.trace ∧
          (earlier.parser.verbose = true → later.parser.verbose = true))
      (fun _ => ⟨rfl, id⟩)
      (fun first second => ⟨second.1.trans first.1, second.2 ∘ first.2⟩)
      stays reaches decides
  rwa [frameAfter_of_ok notified] at related

/--
A verbose parser is about to read tokens that carry plain data with a steadfast table, and
its observers leave the parse, the trace and the tuples in the store alone, and return.
-/
structure ReadsAloud
    (deliver : Deliver ω)
    (table : Table)
    (input : List Token)
    (frame : Frame ω) :
    Prop where
  loaded : frame.parser.Loaded table (input.map .token)
  unused : frame.parser.ran = false
  verbose : frame.parser.verbose = true
  plain : ∀ token ∈ input, frame.store.IsPlain token.value
  steadfast : table.Steadfast frame.store
  undisturbed : Undisturbed deliver (.table table) frame.begun
  ends : NotificationsEnd deliver (.table table) frame.begun
  tuples : TuplesStay deliver (.table table) frame.begun
  payloads : PayloadsStay deliver table frame.begun input
  trace : TraceStays deliver (.table table) frame.begun

/-- A verbose parser on a path through a steadfast table, with plain tokens about. -/
structure Composed
    (table : Table)
    (input : List Token)
    (frame : Frame ω) :
    Prop where
  steadfast : table.Steadfast frame.store
  plain : ∀ token ∈ input, frame.store.IsPlain token.value
  within : frame.situation.Within table input
  onPath : OnPath table frame
  verbose : frame.parser.verbose = true

namespace Composed

theorem prints
    (composed : Composed table input before)
    (prints : before.PrintsTo after) :
    Composed table input after where
  steadfast := prints.store ▸ composed.steadfast
  plain := prints.store ▸ composed.plain
  within := prints.situation ▸ composed.within
  onPath := composed.onPath.prints prints
  verbose := prints.parser ▸ composed.verbose

/-- The stacks of a composed parser are printed whole. -/
theorem stackBlock_isWhole
    (composed : Composed table input frame) :
    frame.stackBlock.IsWhole := by
  refine
    ⟨composed.steadfast.legible.stack_fits (.refl table frame.store) composed.plain
      composed.within, ?_⟩
  rintro symbols states shape
  obtain ⟨rfl, rfl⟩ := TraceBlock.stack.inj shape
  have path : table.Path frame.store frame.parser.states frame.parser.symbols :=
    composed.onPath
  constructor
  · rw [List.head?_map, List.head?_reverse, path.getLast_symbols]
    rfl
  · simp only [List.length_map, List.length_reverse]
    exact path.length_eq

/-- A composed parser prints its stacks. -/
theorem printStack_eq
    (composed : Composed table input frame) :
    printStack frame =
      .ok () { frame with trace := frame.stackBlock :: frame.trace } := by
  rw [Run.printStack_eq, if_pos composed.verbose]
  exact print_of_fit composed.stackBlock_isWhole.1

/-- A token that a composed parser has before it is one of the input. -/
theorem lookahead_mem
    {first : Value}
    {rest : List Value}
    (composed : Composed table input frame)
    (queue : frame.parser.pending = first :: rest) :
    ∃ token ∈ input, first = .token token := by
  refine composed.within.tokens first ?_
  change first ∈ frame.parser.pending
  rw [queue]
  exact List.mem_cons_self

/-- A composed parser with a lookahead selects a firm action, and decides on it or complains. -/
theorem selects
    {first : Value}
    {rest : List Value}
    (composed : Composed table input frame)
    (queue : frame.parser.pending = first :: rest) :
    ∃ selection,
      frame.parser.select frame.store (.table table) first = .ok selection ∧
        selection.token = first ∧
        frame.store.IsFirm selection.action ∧
        ∀ cause,
          frame.parser.decision frame.store selection = .error cause →
            (frame.store.settle cause).Complains := by
  obtain ⟨token, listed, rfl⟩ := composed.lookahead_mem queue
  obtain ⟨selection, selected, ofTable, ofToken, onStack, firm⟩ :=
    Parser.select_ok composed.steadfast composed.onPath token
  refine ⟨selection, selected, ofToken, firm, fun cause refused => ?_⟩
  exact
    Parser.decision_complains composed.steadfast composed.onPath
      (composed.plain token listed) ofTable ofToken onStack firm refused

end Composed

/-- A turn of a composed parser with a lookahead and a firm action. -/
structure Sound
    (table : Table)
    (input : List Token)
    (showing : Showing ω) :
    Prop where
  composed : Composed table input showing.frame
  queue :
    ∃ first rest, showing.frame.parser.pending = first :: rest
  firm : showing.frame.store.IsFirm showing.action

namespace Sound

variable {showing : Showing ω}

theorem shown_lookahead
    (sound : Sound table input showing) :
    ∃ text,
      (showing.frame.store.resolve showing.frame.lookahead).shown = .ok text := by
  obtain ⟨first, rest, queue⟩ := sound.queue
  obtain ⟨token, listed, rfl⟩ := sound.composed.lookahead_mem queue
  rw [Frame.lookahead, queue]
  exact Store.shown_token (sound.composed.plain token listed)

/-- The line of a lookahead is its text behind the label. -/
theorem hasInput
    (sound : Sound table input showing) :
    showing.HasInput showing.lookaheadBlock.text := by
  obtain ⟨text, shows⟩ := sound.shown_lookahead
  refine ⟨text, shows, ?_⟩
  simp [Showing.lookaheadBlock, TraceBlock.resolve, TraceBlock.text,
    TraceBlock.pieces, TraceBlock.lookaheadLine, TraceBlock.printed, shows, bind,
    Except.bind, pure, Except.pure]

/-- The line of an action is its text behind the arrow. -/
theorem hasArrow
    (sound : Sound table input showing) :
    showing.HasArrow showing.actionBlock.text := by
  obtain ⟨text, shows⟩ := sound.firm.shown
  refine ⟨text, shows, ?_⟩
  obtain ⟨carried, isAction⟩ := sound.firm.exists_action
  obtain ⟨fill, resolved⟩ := showing.frame.store.resolve_action carried
  have inGap :
      showing.frame.store.resolveInGap (.action carried) =
        .action (carried.expand fill) :=
    resolved
  rw [isAction, resolved] at shows
  simp [Showing.actionBlock, TraceBlock.resolve, TraceBlock.text,
    TraceBlock.pieces, TraceBlock.actionLine, TraceBlock.printed, isAction, inGap,
    Value.shownInGap, shows, bind, Except.bind, pure, Except.pure]

/-- Everything that is shown of a turn is printed whole. -/
theorem blocks_isWhole
    (sound : Sound table input showing) :
    ∀ block ∈ showing.blocks, block.IsWhole := by
  refine List.forall_mem_cons.mpr ⟨sound.composed.stackBlock_isWhole, ?_⟩
  refine List.forall_mem_cons.mpr ⟨⟨?_, nofun⟩, ?_⟩
  · exact TraceBlock.lookahead_fits sound.shown_lookahead
  · refine List.forall_mem_singleton.mpr ⟨?_, nofun⟩
    have shows := sound.firm.shown
    obtain ⟨carried, isAction⟩ := sound.firm.exists_action
    rw [Showing.actionBlock, isAction]
    rw [isAction] at shows
    exact TraceBlock.action_fits_of_shown shows

/-- A composed parser prints all that there is to show of a turn. -/
theorem printSelection_eq
    {selection : Selection}
    (sound : Sound table input showing)
    (ofToken : selection.token = showing.frame.lookahead)
    (ofAction : selection.action = showing.action) :
    printSelection selection showing.frame =
      .ok ()
        { showing.frame with
          trace := showing.blocks.reverse ++ showing.frame.trace } := by
  have whole := sound.blocks_isWhole
  rw [Run.printSelection_eq, if_pos sound.composed.verbose, ofToken, ofAction]
  refine (bind_of_ok (print_of_fit ?stack)).trans ?_
  case stack => exact (whole showing.frame.stackBlock (by simp [Showing.blocks])).1
  refine (bind_of_ok (print_of_fit ?lookahead)).trans ?_
  case lookahead => exact (whole showing.lookaheadBlock (by simp [Showing.blocks])).1
  exact print_of_fit (whole showing.actionBlock (by simp [Showing.blocks])).1

end Sound

/-- A parser that has shown a turn and comes to no decision fails, and announces nothing. -/
theorem drive_of_complaint
    {token : Value}
    {rest : List Value}
    {selection : Selection}
    {cause : Fault}
    (queue : before.parser.pending = token :: rest)
    (selected :
      before.parser.select before.store (.table table) token = .ok selection)
    (printed : printSelection selection before = .ok () shown)
    (refused : before.parser.decision before.store selection = .error cause)
    (deliver : Deliver ω)
    (granted : Nat) :
    announcements deliver (.table table) (granted + 1) before = [] ∧
      drive deliver (.table table) (granted + 1) before =
        .error (.fault (shown.store.settle cause)) shown := by
  have consulted :
      consult (.table table) token before =
        .error (.fault (shown.store.settle cause)) shown := by
    rw [consult_eq, selected, bind_of_ok (demand_ok selection before),
      bind_of_ok printed, refused]
    rfl
  constructor
  · simp [announcements, announcement?, queue, consulted]
  · rw [drive_of_lookahead queue, turn_eq_consult, bind_of_error consulted]

namespace ReadsAloud

theorem begun_composed
    (reads : ReadsAloud deliver table input frame) :
    Composed table input frame.begun where
  steadfast := reads.steadfast
  plain := reads.plain
  within := reads.loaded.within
  onPath := onPath_of_loaded reads.loaded
  verbose := reads.verbose

/-- Every action that is carried out leaves the parser composed. -/
theorem performs_composed
    (reads : ReadsAloud deliver table input frame)
    (reaches : Reaches deliver (.table table) frame.begun before)
    (composed : Composed table input before)
    (performs : Performs deliver (.table table) before decision after) :
    Composed table input after := by
  have answers := reads.tuples.answersStay reads.steadfast.constantStates
  have onPath :=
    performs_onPath reads.undisturbed answers reaches composed.onPath performs
  obtain ⟨sanctioned, moves⟩ := reads.undisturbed.moves reaches performs
  cases performs with
  | @intro shown told _ parser decides notified committed prints =>
      have keeps :=
        notify_relates (fun earlier later => earlier.store.Keeps later.store)
          (fun frame => .refl frame.store)
          (fun first second => first.trans second) reads.tuples reaches decides
      rw [frameAfter_of_ok notified, decides.printsTo.store] at keeps
      have plain :=
        reads.payloads.passes_plain reads.plain (.told reaches decides notified)
      have verbose := (reads.trace.notified reaches decides notified).2
      rw [decides.printsTo.parser] at verbose
      constructor
      · rw [prints.store]
        exact composed.steadfast.transfer keeps
      · rw [prints.store]
        exact plain
      · exact moves.within sanctioned composed.within
      · exact onPath
      · rw [prints.parser, (Parser.commit_keeps committed).verbose]
        exact verbose composed.verbose

/-- A parser that reads aloud is composed throughout its run. -/
theorem composed
    (reads : ReadsAloud deliver table input frame)
    (reaches : Reaches deliver (.table table) frame.begun before) :
    Composed table input before :=
  reaches.holds (Composed table input) reads.performs_composed reads.begun_composed

/-- What a parser decides on it has shown before. -/
theorem decided
    (reads : ReadsAloud deliver table input frame)
    (reaches : Reaches deliver (.table table) frame.begun before)
    (decides : Decides (.table table) before decision shown) :
    Sound table input (Announcement.showing ⟨decision, shown⟩) ∧
      shown.printed =
        before.printed ++ (Announcement.showing ⟨decision, shown⟩).blocks := by
  have composed := reads.composed reaches
  cases decides with
  | @intro token rest selection _ _ queue selected printed decided =>
      obtain ⟨_, selectedAgain, ofToken, firm, _⟩ := composed.selects queue
      rw [selected] at selectedAgain
      cases selectedAgain
      rw [Parser.decision_action decided] at firm
      have sound : Sound table input ⟨before, decision.action⟩ :=
        ⟨composed, ⟨token, rest, queue⟩, firm⟩
      have ofLookahead : selection.token = before.lookahead := by
        rw [ofToken, Frame.lookahead, queue]
        rfl
      rw [sound.printSelection_eq ofLookahead (Parser.decision_action decided)]
        at printed
      cases printed
      constructor
      · exact ⟨composed.prints ⟨rfl, rfl, rfl⟩, ⟨token, rest, queue⟩, firm⟩
      · simp only [Frame.printed, List.reverse_append, List.reverse_reverse]
        rfl

/-- What a parser decides on it carries out, and shows what comes of a reduction. -/
theorem performed
    (reads : ReadsAloud deliver table input frame)
    (reaches : Reaches deliver (.table table) frame.begun before)
    (decides : Decides (.table table) before decision shown) :
    ∃ after,
      perform deliver decision shown = .ok decision.progress after ∧
        Performs deliver (.table table) before decision after ∧
        after.printed =
          shown.printed ++ Announcement.outcomeBlocks deliver ⟨decision, shown⟩ := by
  have within := (reads.composed reaches).within
  have proper := reads.steadfast.legible.hasProperHeads
  obtain ⟨told, notified⟩ := reads.ends before decision shown reaches decides
  cases committed : Parser.commit decision told.parser with
  | error cause parser =>
      exact (decides.sanctioned.unbroken proper within.holdsTokens
        (reads.undisturbed.remains reaches decides notified committed)).elim
  | ok result parser =>
      have performs :
          Performs deliver (.table table) before decision
            { told with parser := parser } :=
        .intro decides notified committed (.refl _)
      have composed :=
        reads.performs_composed reaches (reads.composed reaches) performs
      have sameTrace := (reads.trace.notified reaches decides notified).1
      have ends := perform_eq notified committed
      cases decision with
      | shift state token next =>
          refine ⟨_, ends, performs, ?_⟩
          simp [Frame.printed, Announcement.outcomeBlocks, sameTrace]
      | accept state =>
          refine ⟨_, ends, performs, ?_⟩
          simp [Frame.printed, Announcement.outcomeBlocks, sameTrace]
      | reduce state production next =>
          replace ends := ends.trans (bind_of_ok composed.printStack_eq)
          refine ⟨_, ends, .intro decides notified committed ⟨rfl, rfl, rfl⟩, ?_⟩
          simp only [Announcement.outcomeBlocks, frameAfter_of_ok ends]
          simp only [Frame.printed, List.reverse_cons, sameTrace]
          rfl

/-- With nothing left to read, a run ends without showing anything more. -/
theorem drive_of_exhausted
    (reads : ReadsAloud deliver table input frame)
    (reaches : Reaches deliver (.table table) frame.begun before)
    (nothing : before.parser.pending = [])
    (granted : Nat) :
    announcements deliver (.table table) (granted + 1) before = [] ∧
      ∃ state,
        drive deliver (.table table) (granted + 1) before =
          .error (.fault (.malformedTable (.inputExhausted state))) before := by
  have composed := reads.composed reaches
  have path : table.Path before.store before.parser.states before.parser.symbols :=
    composed.onPath
  constructor
  · simp [announcements, announcement?, nothing]
  · rw [drive_of_nothing nothing]
    cases stack : before.parser.states with
    | nil =>
        rw [stack] at path
        cases path
    | cons state below =>
        have known : table.HasState state :=
          path.hasState (by rw [stack]; exact List.mem_cons_self)
        obtain ⟨text, shows⟩ :=
          Value.shown_plain (composed.steadfast.legible.states state known)
        simp only [Parser.topState, stack]
        exact ⟨_, by rw [Store.settle_inputExhausted shows]⟩

/-- What a run prints from a frame on, and the last words that it comes to. -/
theorem drive_narrates
    (reads : ReadsAloud deliver table input frame)
    (granted : Nat)
    (reaches : Reaches deliver (.table table) frame.begun before) :
    ∃ unheard,
      LastWords table (frameAfter (drive deliver (.table table) granted) before)
          (halt? (drive deliver (.table table) granted) before) unheard ∧
        (∀ showing ∈ unheard, Sound table input showing) ∧
        (frameAfter (drive deliver (.table table) granted) before).printed =
          before.printed ++
            ((announcements deliver (.table table) granted before).flatMap
                (Announcement.blocks deliver) ++
              unheard.flatMap Showing.blocks) := by
  induction granted generalizing before with
  | zero => exact ⟨[], .unfinished, nofun, (List.append_nil _).symm⟩
  | succ granted inductionHypothesis =>
      have composed := reads.composed reaches
      cases queue : before.parser.pending with
      | nil =>
          obtain ⟨announced, state, ends⟩ :=
            reads.drive_of_exhausted reaches queue granted
          rw [frameAfter_of_error ends, halt?_of_error ends, announced]
          exact ⟨[], .exhausted queue, nofun, (List.append_nil _).symm⟩
      | cons token rest =>
          obtain ⟨selection, selected, ofToken, firm, complains⟩ :=
            composed.selects queue
          have sound : Sound table input ⟨before, selection.action⟩ :=
            ⟨composed, ⟨token, rest, queue⟩, firm⟩
          have isLookahead : token = before.lookahead := by
            rw [Frame.lookahead, queue]
            rfl
          have printed :=
            sound.printSelection_eq (ofToken.trans isLookahead) rfl
          cases chosen : before.parser.decision before.store selection with
          | error cause =>
              obtain ⟨announced, ends⟩ :=
                drive_of_complaint queue selected printed chosen deliver granted
              rw [frameAfter_of_error ends, halt?_of_error ends, announced]
              refine
                ⟨[⟨_, selection.action⟩],
                  .complained (isLookahead ▸ selected) chosen (complains cause chosen),
                  List.forall_mem_singleton.mpr
                    ⟨composed.prints ⟨rfl, rfl, rfl⟩, ⟨token, rest, queue⟩, firm⟩,
                  ?_⟩
              simp only [Frame.printed, List.reverse_append, List.reverse_reverse]
              simp only [List.flatMap_nil, List.nil_append, List.flatMap_singleton]
              rfl
          | ok decision =>
              have decides := Decides.intro queue selected printed chosen
              obtain ⟨_, shows⟩ := reads.decided reaches decides
              obtain ⟨after, performed, performs, grows⟩ :=
                reads.performed reaches decides
              obtain ⟨announced, driven⟩ := drive_of_decided deliver granted decides
              rw [performed] at announced driven
              cases progress : decision.progress with
              | finished =>
                  rw [progress] at announced driven
                  have accepted :=
                    accepted_of_performs reads.undisturbed reaches performs
                  rw [progress] at accepted
                  rw [frameAfter_of_ok driven, halt?_of_ok driven, announced]
                  refine ⟨[], .accepted accepted, nofun, ?_⟩
                  rw [grows, shows]
                  simp [Announcement.blocks]
              | running =>
                  rw [progress] at announced driven performed
                  rw [← decides.turn_eq queue] at performed
                  obtain ⟨unheard, words, sounds, printedRest⟩ :=
                    inductionHypothesis (.turn reaches queue performed)
                  simp only [frameAfter, halt?, driven, announced]
                  refine ⟨unheard, words, sounds, ?_⟩
                  simp only [frameAfter] at printedRest
                  rw [printedRest, grows, shows]
                  simp [Announcement.blocks]

/-- Every action that a run announces has been shown as it was announced. -/
theorem announced_sound
    {granted : Nat}
    {announced : Announcement ω}
    (reads : ReadsAloud deliver table input frame)
    (member :
      announced ∈ announcements deliver (.table table) granted frame.begun) :
    Sound table input announced.showing ∧
      ∀ block ∈ announced.blocks deliver, block.IsWhole := by
  obtain ⟨number, listed⟩ := List.mem_iff_getElem?.mp member
  obtain ⟨decision, shown⟩ := announced
  obtain ⟨before, reaches, decides⟩ := (getElem?_announcements_iff.mp listed).2.decided
  obtain ⟨sound, _⟩ := reads.decided reaches decides
  obtain ⟨after, performed, performs, _⟩ := reads.performed reaches decides
  have composed :=
    reads.performs_composed reaches (reads.composed reaches) performs
  refine ⟨sound, fun block blockMember => ?_⟩
  rcases List.mem_append.mp blockMember with earlier | later
  · exact sound.blocks_isWhole block earlier
  · cases decision with
    | shift | accept => cases later
    | reduce =>
        rw [List.mem_singleton.mp later, frameAfter_of_ok performed]
        exact composed.stackBlock_isWhole

end ReadsAloud

/-- Where every item has one line of a sort, a trace has the lines of its items in order. -/
theorem filterMap_flatMap_of_single
    {α : Type}
    {line? : TraceBlock → Option String}
    {blocks : α → List TraceBlock}
    {line : α → String}
    (single : ∀ item, (blocks item).filterMap line? = [line item])
    (items : List α) :
    (items.flatMap blocks).filterMap line? = items.map line := by
  rw [List.filterMap_flatMap, List.map_eq_flatMap]
  simp only [single]

/-- An action that is announced has one arrow and one lookahead to show. -/
theorem Announcement.lines_blocks
    (deliver : Deliver ω)
    (announced : Announcement ω) :
    TraceBlock.arrows (announced.blocks deliver) =
        [announced.showing.actionBlock.text] ∧
      TraceBlock.inputs (announced.blocks deliver) =
        [announced.showing.lookaheadBlock.text] := by
  rcases announced with ⟨decision, shown⟩
  cases decision with
  | shift => exact ⟨rfl, rfl⟩
  | reduce => exact ⟨rfl, rfl⟩
  | accept => exact ⟨rfl, rfl⟩

/-- The arrows and the lookaheads of a story are those of its turns, in order. -/
theorem lines_of_story
    (deliver : Deliver ω)
    (announced : List (Announcement ω))
    (unheard : List (Showing ω)) :
    TraceBlock.arrows
          (announced.flatMap (Announcement.blocks deliver) ++
            unheard.flatMap Showing.blocks) =
        (announced.map Announcement.showing ++ unheard).map
          (fun showing => showing.actionBlock.text) ∧
      TraceBlock.inputs
          (announced.flatMap (Announcement.blocks deliver) ++
            unheard.flatMap Showing.blocks) =
        (announced.map Announcement.showing ++ unheard).map
          fun showing => showing.lookaheadBlock.text := by
  have arrowOf := fun entry => (Announcement.lines_blocks deliver entry).1
  have inputOf := fun entry => (Announcement.lines_blocks deliver entry).2
  simp only [TraceBlock.arrows, TraceBlock.inputs, List.filterMap_append,
    List.map_append, List.map_map]
  constructor
  · rw [filterMap_flatMap_of_single arrowOf,
      filterMap_flatMap_of_single (fun showing => rfl)]
    rfl
  · rw [filterMap_flatMap_of_single inputOf,
      filterMap_flatMap_of_single (fun showing => rfl)]
    rfl

/--
The trace of a verbose parser and what its observers hear tell the same story.

What a run prints is, for each action that it announces, the stacks, the lookahead and the
action, and after a reduction the stacks once more; and the stacks, the lookahead and the
action of a turn on which the parser complains, which is announced to nobody.  Every arrow
is followed by the text of the action of its turn, every label by that of the lookahead, and
every stack is shown from the bottom marker on with a state for each symbol.  An observer
that takes everything down has heard of just the actions that were announced.
-/
theorem trace_tells_what_is_heard
    (reads : ReadsAloud deliver table input frame)
    (granted : Nat) :
    ∃ story unheard,
      LastWords table (frameAfter (Run.start deliver granted) frame)
          (halt? (Run.start deliver granted) frame) unheard ∧
        (frameAfter (Run.start deliver granted) frame).printed =
          frame.printed ++ story ∧
        story =
          (announcements deliver (.table table) granted frame.begun).flatMap
              (Announcement.blocks deliver) ++
            unheard.flatMap Showing.blocks ∧
        List.Forall₂ Showing.HasArrow
          ((announcements deliver (.table table) granted frame.begun).map
              Announcement.showing ++
            unheard)
          (TraceBlock.arrows story) ∧
        List.Forall₂ Showing.HasInput
          ((announcements deliver (.table table) granted frame.begun).map
              Announcement.showing ++
            unheard)
          (TraceBlock.inputs story) ∧
        (∀ block ∈ story, block.IsWhole) ∧
        ∀ (observer : String) (record : ω → List Event),
          Records deliver (.table table) frame.begun observer
              (fun event => [event]) record →
            record (frameAfter (Run.start deliver granted) frame).world =
              record frame.world ++
                events deliver (.table table) granted frame.begun := by
  have begins := start_begins reads.loaded.isLoaded reads.unused deliver granted
  rw [reads.loaded.held] at begins
  have sameFrame :
      frameAfter (Run.start deliver granted) frame =
        frameAfter (drive deliver (.table table) granted) frame.begun := by
    simp only [frameAfter, begins]
  have sameHalt :
      halt? (Run.start deliver granted) frame =
        halt? (drive deliver (.table table) granted) frame.begun := by
    simp only [halt?, begins]
  obtain ⟨unheard, words, sounds, printed⟩ :=
    reads.drive_narrates granted .start
  obtain ⟨arrows, inputs⟩ :=
    lines_of_story deliver
      (announcements deliver (.table table) granted frame.begun) unheard
  have allSound :
      ∀ showing ∈
          (announcements deliver (.table table) granted frame.begun).map
              Announcement.showing ++
            unheard,
        Sound table input showing := by
    intro showing member
    rcases List.mem_append.mp member with heard | unheard
    · obtain ⟨announced, listed, rfl⟩ := List.mem_map.mp heard
      exact (reads.announced_sound listed).1
    · exact sounds showing unheard
  rw [sameFrame, sameHalt]
  refine ⟨_, unheard, words, printed, rfl, ?_, ?_, ?_, ?_⟩
  · rw [arrows, List.forall₂_map_right_iff, List.forall₂_same]
    exact fun showing member => (allSound showing member).hasArrow
  · rw [inputs, List.forall₂_map_right_iff, List.forall₂_same]
    exact fun showing member => (allSound showing member).hasInput
  · intro block member
    rcases List.mem_append.mp member with heard | last
    · obtain ⟨announced, listed, shown⟩ := List.mem_flatMap.mp heard
      exact (reads.announced_sound listed).2 block shown
    · obtain ⟨showing, listed, shown⟩ := List.mem_flatMap.mp last
      exact (sounds showing listed).blocks_isWhole block shown
  · intro observer record records
    rw [records.carriesOut (drive_carriesOut reads.ends granted .start), events,
      List.map_eq_flatMap]
    rfl

section Stray

open Grammar

/-- A parser about to read two letters, the second of which it refuses, and a listener. -/
def strayFrame : Frame (List Event) :=
  Frame.fresh Nullable.table ((letters (.int 5)).map .token) ["log"] []

theorem stray_readsAloud :
    ReadsAloud (logging "log") Nullable.table (letters (.int 5)) strayFrame := by
  have confined :=
    logging_confined "log" (.table Nullable.table) strayFrame.begun
  exact
    { loaded := Frame.fresh_loaded ..
      unused := rfl
      verbose := rfl
      plain := fun token member =>
        strayFrame.store.isPlain_of_constant (letters_constant rfl token member)
      steadfast := nullable_orderly.steadfast _
      undisturbed := confined.undisturbed
      ends :=
        logging_notificationsEnd "log" _ _ fun listener member =>
          ⟨"log", List.mem_singleton.mp member⟩
      tuples := confined.tuplesStay
      payloads := confined.payloadsStay _
      trace := confined.traceStays }

/-- Two actions are shown and heard of; a third is shown as the second letter is refused. -/
theorem trace_tells_of_stray_letter :
    ReadsAloud (logging "log") Nullable.table (letters (.int 5)) strayFrame ∧
      ∃ last,
        List.Forall₂ Showing.HasArrow
          ((announcements (logging "log") (.table Nullable.table) 3
              strayFrame.begun).map Announcement.showing ++
            [last])
          ["   --> [reduce A -> ε]\n", "   --> [shift 2]\n", "   --> [error]\n"] := by
  have arrows :
      TraceBlock.arrows
          (frameAfter (Run.start (logging "log") 3) strayFrame).printed =
        ["   --> [reduce A -> ε]\n", "   --> [shift 2]\n", "   --> [error]\n"] := by
    cbv
  have refused :
      halt? (Run.start (logging "log") 3) strayFrame =
        some
          (.fault
            (.unexpectedToken (.int 2) (.token (.plain "b" (.int 5)))
              [.text "$"])) := by
    cbv
  obtain ⟨story, unheard, words, printed, _, shown, _⟩ :=
    trace_tells_what_is_heard stray_readsAloud 3
  rw [printed] at arrows
  refine ⟨stray_readsAloud, ?_⟩
  rw [← arrows]
  generalize halt? (Run.start (logging "log") 3) strayFrame = halt at words refused
  cases words with
  | complained => exact ⟨_, shown⟩
  | accepted | exhausted | unfinished => cases refused

end Stray

end Run

end ShiftReduce
