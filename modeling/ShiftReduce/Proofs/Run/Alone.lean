import ShiftReduce.Proofs.Parser.Sight
import ShiftReduce.Proofs.Request.SetUp
import ShiftReduce.Proofs.Run.Continuation
import ShiftReduce.Proofs.Run.Steady

namespace ShiftReduce

/-!
# Runs that are left alone

A run is left alone if its callbacks keep away from its parser and from everything that
its parse sees of the store, and come to their end.  It then takes the course of a run
without any observers that begins in the same way (`Run.LeftAlone.drives`), unless a
callback is still going on after all steps that are granted.
-/

namespace Frame

variable {ω ψ : Type}

/-- A frame becomes another with the same parser and nothing that looks different to it. -/
structure Leaves
    (table : Table)
    (before after : Frame ω) :
    Prop where
  parser : after.parser = before.parser
  sight : table.SameSight before.situation.Holds before.store after.store

namespace Leaves

variable
  {table : Table}
  {first second third : Frame ω}

theorem refl
    (table : Table)
    (frame : Frame ω) :
    frame.Leaves table frame :=
  ⟨rfl, .refl table _ _⟩

theorem trans
    (before : first.Leaves table second)
    (after : second.Leaves table third) :
    first.Leaves table third := by
  refine ⟨after.parser.trans before.parser, before.sight.trans ?_⟩
  have sight := after.sight
  rwa [Frame.situation, before.parser] at sight

end Leaves

/-- Two parsers are at the same point of a parse. -/
structure SameParse
    (frame : Frame ω)
    (other : Frame ψ) :
    Prop where
  situation : other.situation = frame.situation
  accepted : other.parser.accepted = frame.parser.accepted

/--
A parser with observers is at the same point of a parse as one without any, and the table
and the tokens look the same to both.
-/
structure Beside
    (table : Table)
    (frame : Frame ω)
    (other : Frame ψ) :
    Prop extends SameParse frame other where
  verbose : other.parser.verbose = frame.parser.verbose
  known : ∀ state ∈ frame.parser.states, table.HasState state
  sight : table.SameSight frame.situation.Holds frame.store other.store
  observers :
    ∀ listener ∈ frame.parser.registry.listeners,
      ∃ name, listener = .observer name
  unheard : other.parser.registry.listeners = []

namespace Beside

variable
  {table : Table}
  {frame after : Frame ω}
  {other otherAfter : Frame ψ}

theorem states
    (beside : frame.Beside table other) :
    other.parser.states = frame.parser.states :=
  congrArg Situation.states beside.situation

theorem symbols
    (beside : frame.Beside table other) :
    other.parser.symbols = frame.parser.symbols :=
  congrArg Situation.symbols beside.situation

theorem pending
    (beside : frame.Beside table other) :
    other.parser.pending = frame.parser.pending :=
  congrArg Situation.pending beside.situation

/-- Printing leaves parsers beside each other. -/
theorem prints
    (beside : frame.Beside table other)
    (prints : frame.PrintsTo after)
    (otherPrints : other.PrintsTo otherAfter) :
    after.Beside table otherAfter where
  situation := by
    rw [prints.situation, otherPrints.situation, beside.situation]
  accepted := by rw [prints.parser, otherPrints.parser, beside.accepted]
  verbose := by rw [prints.parser, otherPrints.parser, beside.verbose]
  known := by
    rw [prints.parser]
    exact beside.known
  sight := by
    rw [prints.situation, prints.store, otherPrints.store]
    exact beside.sight
  observers := by
    rw [prints.parser]
    exact beside.observers
  unheard := by
    rw [otherPrints.parser]
    exact beside.unheard

/-- Callbacks that leave a parser be leave it beside the other one. -/
theorem leaves
    (beside : frame.Beside table other)
    (leaves : frame.Leaves table after) :
    after.Beside table other where
  situation := by
    rw [Frame.situation, Frame.situation, leaves.parser]
    exact beside.situation
  accepted := by rw [leaves.parser, beside.accepted]
  verbose := by rw [leaves.parser, beside.verbose]
  known := by
    rw [leaves.parser]
    exact beside.known
  sight := by
    rw [Frame.situation, leaves.parser]
    exact leaves.sight.symm.trans beside.sight
  observers := by
    rw [leaves.parser]
    exact beside.observers
  unheard := beside.unheard

/-- A parser at the same parse as another one has only the rest of its own. -/
theorem parser_eq
    (beside : frame.Beside table other) :
    other.parser = other.parser.withParse frame.parser := by
  rw [Parser.withParse, ← beside.states, ← beside.symbols, ← beside.pending,
    ← beside.accepted]

/-- An action that is carried out leaves parsers beside each other. -/
theorem commits
    {store : Store}
    {decision : Decision}
    {parser : Parser}
    (beside : frame.Beside table other)
    (sanctioned : frame.situation.Sanctions table store decision)
    (committed : Parser.commit decision frame.parser = .ok () parser) :
    { frame with parser := parser }.Beside table
      { other with parser := other.parser.withParse parser } := by
  have rest := Parser.commit_rest committed
  have moves := Parser.commit_moves sanctioned rfl committed
  exact
    { situation := rfl
      accepted := rfl
      verbose :=
        beside.verbose.trans (congrArg Parser.verbose rest).symm
      known := moves.known sanctioned beside.known
      sight := beside.sight.mono fun _ => moves.holds sanctioned
      observers := by
        rw [congrArg Parser.registry rest]
        exact beside.observers
      unheard := beside.unheard }

end Beside

/-- A new parser without observers that has been given a table and tokens. -/
def alone
    (table : Table)
    (tokens : List Value)
    (verbose : Bool)
    (store : Store) :
    Frame Unit where
  parser :=
    [SetUp.loadTable (.table table), .loadTokens (.list tokens)].foldl
      (SetUp.change store) (.create .none verbose)
  store := store
  trace := []
  world := ()

/-- A loaded parser begins to run beside a new one that was given the same. -/
theorem begun_beside
    {table : Table}
    {tokens : List Value}
    {frame : Frame ω}
    (loaded : frame.parser.Loaded table tokens)
    (unaccepted : frame.parser.accepted = false)
    (observers :
      ∀ listener ∈ frame.parser.registry.listeners,
        ∃ name, listener = .observer name) :
    frame.begun.Beside table
      (alone table tokens frame.parser.verbose frame.store).begun where
  situation := by
    simp only [Frame.situation, Parser.situation, begun, loaded.states,
      loaded.symbols, loaded.pending]
    rfl
  accepted := unaccepted.symm
  verbose := rfl
  known := by
    change ∀ state ∈ frame.parser.states, _
    rw [loaded.states]
    intro state member
    rw [List.mem_singleton.mp member]
    exact .initial
  sight := .refl table _ _
  observers := observers
  unheard := rfl

end Frame

namespace Run

variable
  {ω ψ α β : Type}
  {table : Table}
  {frame : Frame ω}
  {other : Frame ψ}

/-- Two activities come to the same, and leave parsers beside each other if they return. -/
inductive EndBeside
    (table : Table) :
    EStateM.Result Halt (Frame ω) α →
      EStateM.Result Halt (Frame ψ) α → Prop where
  | ok
      {result : α}
      {after : Frame ω}
      {otherAfter : Frame ψ}
      (beside : after.Beside table otherAfter) :
      EndBeside table (.ok result after) (.ok result otherAfter)
  | error
      {halt : Halt}
      {after : Frame ω}
      {otherAfter : Frame ψ}
      (same : after.SameParse otherAfter) :
      EndBeside table (.error halt after) (.error halt otherAfter)

/-- Such activities both return with the same, or both halt for the same reason. -/
theorem EndBeside.cases
    {ending : EStateM.Result Halt (Frame ω) α}
    {otherEnding : EStateM.Result Halt (Frame ψ) α}
    (alike : EndBeside table ending otherEnding) :
    (∃ result after otherAfter,
      ending = .ok result after ∧
        otherEnding = .ok result otherAfter ∧
        after.Beside table otherAfter) ∨
    (∃ halt after otherAfter,
      ending = .error halt after ∧
        otherEnding = .error halt otherAfter ∧
        after.SameParse otherAfter) := by
  cases alike with
  | ok beside => exact .inl ⟨_, _, _, rfl, rfl, beside⟩
  | error same => exact .inr ⟨_, _, _, rfl, rfl, same⟩

/-- What follows activities that come to the same comes to the same if it does so there. -/
theorem EndBeside.bind
    {first : Run ω α}
    {otherFirst : Run ψ α}
    {next : α → Run ω β}
    {otherNext : α → Run ψ β}
    (atFirst : EndBeside table (first frame) (otherFirst other))
    (atNext :
      ∀ result after otherAfter,
        first frame = .ok result after →
          otherFirst other = .ok result otherAfter →
          after.Beside table otherAfter →
            EndBeside table (next result after) (otherNext result otherAfter)) :
    EndBeside table ((first >>= next) frame)
      ((otherFirst >>= otherNext) other) := by
  rcases atFirst.cases with
      ⟨result, after, otherAfter, ends, otherEnds, beside⟩ |
        ⟨halt, after, otherAfter, ends, otherEnds, same⟩
  · rw [bind_of_ok ends, bind_of_ok otherEnds]
    exact atNext result after otherAfter ends otherEnds beside
  · rw [bind_of_error ends, bind_of_error otherEnds]
    exact .error same

section Beside

variable (beside : frame.Beside table other)

include beside

/-- Answers that are reported alike are demanded alike. -/
theorem demand_beside
    {answer otherAnswer : Except Fault α}
    (same : other.store.report otherAnswer = frame.store.report answer) :
    EndBeside table (demand answer frame) (demand otherAnswer other) := by
  rcases Store.report_cases same with
      ⟨result, rfl, rfl⟩ | ⟨cause, otherCause, rfl, rfl, settled⟩
  · exact .ok beside
  · rw [demand_error, demand_error, settled]
    exact .error beside.toSameParse

/-- Blocks that look the same are printed alike. -/
theorem print_beside
    {block otherBlock : TraceBlock}
    (same : otherBlock.resolve other.store = block.resolve frame.store) :
    EndBeside table (print block frame) (print otherBlock other) := by
  have prints := print_printsTo block frame
  have otherPrints := print_printsTo otherBlock other
  cases fits : (block.resolve frame.store).misfit? with
  | none =>
      have otherFits := fits
      rw [← same] at otherFits
      rw [frameAfter_of_ok (print_of_fit fits)] at prints
      rw [frameAfter_of_ok (print_of_fit otherFits)] at otherPrints
      rw [print_of_fit fits, print_of_fit otherFits]
      exact .ok (beside.prints prints otherPrints)
  | some misfit =>
      have otherUnfit := fits
      rw [← same] at otherUnfit
      rw [frameAfter_of_error (print_of_misfit fits)] at prints
      rw [frameAfter_of_error (print_of_misfit otherUnfit)] at otherPrints
      rw [print_of_misfit fits, print_of_misfit otherUnfit]
      exact .error (beside.prints prints otherPrints).toSameParse

theorem stackBlock_beside :
    other.parser.stackBlock.resolve other.store =
      frame.parser.stackBlock.resolve frame.store :=
  Parser.stackBlock_sight beside.sight beside.states beside.symbols
    beside.known fun token stacked => .inr ⟨token, rfl, stacked⟩

/-- Parsers beside each other show their stacks alike. -/
theorem printStack_beside :
    EndBeside table (printStack frame) (printStack other) := by
  rw [printStack_eq, printStack_eq, beside.verbose]
  split
  · exact print_beside beside (stackBlock_beside beside)
  · exact .ok beside

/-- Parsers beside each other show what they selected alike. -/
theorem printSelection_beside
    {selection : Selection}
    (sameToken : frame.store.SameIn other.store selection.token)
    (sameAction : frame.store.SameIn other.store selection.action) :
    EndBeside table (printSelection selection frame)
      (printSelection selection other) := by
  rw [printSelection_eq, printSelection_eq, beside.verbose]
  split
  · apply EndBeside.bind (print_beside beside (stackBlock_beside beside))
    intro _ first otherFirst printed otherPrinted firstBeside
    have prints := print_printsTo frame.parser.stackBlock frame
    have otherPrints := print_printsTo other.parser.stackBlock other
    rw [frameAfter_of_ok printed] at prints
    rw [frameAfter_of_ok otherPrinted] at otherPrints
    rw [← prints.store, ← otherPrints.store] at sameToken sameAction
    have tokens :
        (TraceBlock.lookahead selection.token).resolve otherFirst.store =
          (TraceBlock.lookahead selection.token).resolve first.store :=
      congrArg TraceBlock.lookahead sameToken.whole
    apply EndBeside.bind (print_beside firstBeside tokens)
    intro _ second otherSecond printed otherPrinted secondBeside
    have prints := print_printsTo (.lookahead selection.token) first
    have otherPrints := print_printsTo (.lookahead selection.token) otherFirst
    rw [frameAfter_of_ok printed] at prints
    rw [frameAfter_of_ok otherPrinted] at otherPrints
    rw [← prints.store, ← otherPrints.store] at sameAction
    exact
      print_beside secondBeside (congrArg TraceBlock.action sameAction.inGap)
  · exact .ok beside

/-- Parsers beside each other come to the same decision, or to none alike. -/
theorem consult_beside
    {token : Value}
    {rest : List Value}
    (lookahead : frame.parser.pending = token :: rest) :
    EndBeside table (consult (.table table) token frame)
      (consult (.table table) token other) := by
  have isHeld : frame.situation.Holds token := by
    refine .inl ?_
    change token ∈ frame.parser.pending
    rw [lookahead]
    exact List.mem_cons_self
  rw [consult_eq, consult_eq]
  apply EndBeside.bind
    (demand_beside beside
      (Parser.select_sight beside.sight beside.states token))
  intro selection after otherAfter demanded otherDemanded _
  cases selected :
      frame.parser.select frame.store (.table table) token with
  | error cause =>
      rw [selected] at demanded
      cases demanded
  | ok found =>
      rw [selected] at demanded
      cases demanded
      cases otherSelected :
          other.parser.select other.store (.table table) token with
      | error cause =>
          rw [otherSelected] at otherDemanded
          cases otherDemanded
      | ok otherFound =>
          rw [otherSelected] at otherDemanded
          cases otherDemanded
          obtain ⟨_, kind, sameTable, _, top, chosenTable, chosenToken, entry⟩ :=
            Parser.select_inversion selected
          cases sameTable
          have topKnown :=
            beside.known selection.state (List.mem_of_mem_head? top)
          have sameToken := beside.sight.holds token isHeld
          rw [← chosenToken] at sameToken
          apply EndBeside.bind
            (printSelection_beside beside sameToken
              (beside.sight.answer entry))
          intro _ shown otherShown printed otherPrinted shownBeside
          have prints := printSelection_printsTo selection frame
          have otherPrints := printSelection_printsTo selection other
          rw [frameAfter_of_ok printed] at prints
          rw [frameAfter_of_ok otherPrinted] at otherPrints
          apply demand_beside shownBeside
          rw [prints.store, otherPrints.store]
          obtain ⟨chosen, state, lookedAt, action⟩ := selection
          cases chosenTable
          cases chosenToken
          exact
            Parser.decision_sight beside.sight beside.states beside.symbols
              beside.known topKnown isHeld entry

end Beside

/-- A parser with nothing to consult the table about announces nothing. -/
theorem undecided_of_nothing
    {table : Value}
    (exhausts : frame.parser.pending = []) :
    announcement? table frame = none := by
  simp only [announcement?, exhausts]

/-- A parser that fails to come to a decision announces nothing, and ends with the fault. -/
theorem drive_of_unconsulted
    {table token : Value}
    {rest : List Value}
    {halt : Halt}
    {after : Frame ω}
    (lookahead : frame.parser.pending = token :: rest)
    (failed : consult table token frame = .error halt after)
    (deliver : Deliver ω)
    (granted : Nat) :
    announcement? table frame = none ∧
      drive deliver table (granted + 1) frame = .error halt after := by
  constructor
  · simp only [announcement?, lookahead, failed]
  · rw [drive_of_lookahead lookahead, turn_eq_consult, bind_of_error failed]

/-- Parsers beside each other that have run out of tokens end alike. -/
theorem drive_beside_of_nothing
    {deliver : Deliver ω}
    {otherDeliver : Deliver ψ}
    (beside : frame.Beside table other)
    (exhausts : frame.parser.pending = [])
    (granted : Nat) :
    EndBeside table (drive deliver (.table table) (granted + 1) frame)
      (drive otherDeliver (.table table) (granted + 1) other) := by
  rw [drive_of_nothing exhausts,
    drive_of_nothing (beside.pending.trans exhausts), Parser.topState,
    Parser.topState, beside.states]
  cases stack : frame.parser.states with
  | nil =>
      have settled :
          other.store.settle .indexOutOfRange =
            frame.store.settle .indexOutOfRange :=
        Store.settle_eq_of_resolveFault rfl
      simp only [settled]
      exact .error beside.toSameParse
  | cons state below =>
      have known :=
        beside.known state (by rw [stack]; exact List.mem_cons_self)
      have settled :
          other.store.settle (.malformedTable (.inputExhausted state)) =
            frame.store.settle (.malformedTable (.inputExhausted state)) :=
        Store.settle_eq_of_resolveDefect
          (congrArg Defect.inputExhausted
            (beside.sight.states state known).whole)
      simp only [settled]
      exact .error beside.toSameParse

/-- Callbacks leave the parser of a run and what it sees as they are, and never fail. -/
structure LeftAlone
    (deliver : Deliver ω)
    (table : Table)
    (start : Frame ω) :
    Prop where
  leaves :
    ∀ name event moment,
      Callback deliver (.table table) start name event moment →
        moment.Leaves table (frameAfter (deliver name event) moment)
  faultless :
    ∀ name event moment halt after,
      Callback deliver (.table table) start name event moment →
        deliver name event moment = .error halt after →
          halt = .outOfSteps

/-- Telling observers comes to its end, if each of them does. -/
theorem tellAll_faultless
    {deliver : Deliver ω}
    {event : Event}
    {listeners : List Listener}
    {after : Frame ω}
    {halt : Halt}
    (observers : ∀ listener ∈ listeners, ∃ name, listener = .observer name)
    (faultless :
      ∀ name moment halt after,
        Tells deliver event listeners frame name moment →
          deliver name event moment = .error halt after →
            halt = .outOfSteps)
    (halts : Listener.tellAll deliver event listeners frame = .error halt after) :
    halt = .outOfSteps := by
  induction listeners generalizing frame with
  | nil => cases halts
  | cons listener rest inductionHypothesis =>
      obtain ⟨name, rfl⟩ := observers listener List.mem_cons_self
      cases told : deliver name event frame with
      | error cause stopped =>
          have same :
              Listener.tellAll deliver event (.observer name :: rest) frame =
                .error cause stopped :=
            bind_of_error told
          rw [same] at halts
          cases halts
          exact faultless name frame halt after .now told
      | ok result next =>
          have same :
              Listener.tellAll deliver event (.observer name :: rest) frame =
                Listener.tellAll deliver event rest next :=
            bind_of_ok told
          rw [same] at halts
          refine inductionHypothesis ?_ ?_ halts
          · exact fun other member =>
              observers other (List.mem_cons_of_mem _ member)
          · exact fun other moment halt after tells =>
              faultless other moment halt after (.later told tells)

namespace LeftAlone

variable
  {deliver : Deliver ω}
  {otherDeliver : Deliver ψ}
  {start : Frame ω}
  {decision : Decision}

/-- Once decided on, an action is carried out as it would be without observers. -/
theorem performs
    (leftAlone : LeftAlone deliver table start)
    {shown : Frame ω}
    {otherShown : Frame ψ}
    (reaches : Reaches deliver (.table table) start frame)
    (decides : Decides (.table table) frame decision shown)
    (beside : shown.Beside table otherShown) :
    (∃ after, perform deliver decision shown = .error .outOfSteps after) ∨
      EndBeside table (perform deliver decision shown)
        (perform otherDeliver decision otherShown) := by
  have leaves :=
    notify_relates (Frame.Leaves table) (.refl table) .trans leftAlone.leaves
      reaches decides
  have otherNotified :
      notify otherDeliver decision.event otherShown = .ok () otherShown := by
    change
      Listener.tellAll otherDeliver decision.event
        otherShown.parser.registry.listeners otherShown = _
    rw [beside.unheard]
    rfl
  cases notified : notify deliver decision.event shown with
  | error halt after =>
      left
      refine ⟨after, (perform_of_interrupted notified).trans ?_⟩
      rw [tellAll_faultless beside.observers
        (fun name moment halt after tells =>
          leftAlone.faultless name decision.event moment halt after
            (.intro reaches decides tells)) notified]
  | ok result told =>
      right
      rw [frameAfter_of_ok notified] at leaves
      have toldBeside := beside.leaves leaves
      have sanctioned := decides.sanctioned
      rw [← decides.printsTo.situation, Frame.situation, ← leaves.parser]
        at sanctioned
      have framed :=
        Parser.commit_withParse decision otherShown.parser told.parser
      rw [← toldBeside.parser_eq] at framed
      cases committed : Parser.commit decision told.parser with
      | error cause parser =>
          rw [committed] at framed
          rw [perform_of_broken notified committed,
            perform_of_broken otherNotified framed,
            Parser.commit_sight toldBeside.sight sanctioned
              (fun value pending => .inl pending) committed]
          exact .error ⟨rfl, rfl⟩
      | ok result parser =>
          rw [committed] at framed
          have committedBeside := toldBeside.commits sanctioned committed
          rw [perform_eq notified committed, perform_eq otherNotified framed]
          cases decision with
          | shift state token next => exact .ok committedBeside
          | accept state => exact .ok committedBeside
          | reduce state production next =>
              apply EndBeside.bind (printStack_beside committedBeside)
              intro _ after otherAfter _ _ printedBeside
              exact .ok printedBeside

/--
A run that is left alone takes the course of one without observers: it comes to the same
actions and ends in the same way, unless it is still going on.
-/
theorem drives
    (leftAlone : LeftAlone deliver table start)
    (reaches : Reaches deliver (.table table) start frame)
    (beside : frame.Beside table other)
    (granted : Nat) :
    (∃ last, drive deliver (.table table) granted frame = .error .outOfSteps last) ∨
      (EndBeside table (drive deliver (.table table) granted frame)
          (drive otherDeliver (.table table) granted other) ∧
        actions deliver (.table table) granted frame =
          actions otherDeliver (.table table) granted other) := by
  induction granted generalizing frame other with
  | zero => exact .inl ⟨frame, rfl⟩
  | succ granted inductionHypothesis =>
      cases queue : frame.parser.pending with
      | nil =>
          refine .inr ⟨drive_beside_of_nothing beside queue granted, ?_⟩
          rw [actions_of_undecided deliver granted (undecided_of_nothing queue),
            actions_of_undecided otherDeliver granted
              (undecided_of_nothing (beside.pending.trans queue))]
      | cons token rest =>
          have otherQueue := beside.pending.trans queue
          rcases (consult_beside beside queue).cases with
              ⟨decision, shown, otherShown, consulted, otherConsulted,
                shownBeside⟩ |
                ⟨halt, after, otherAfter, consulted, otherConsulted, same⟩
          · have decides := (consult_ok_iff queue).mp consulted
            have otherDecides := (consult_ok_iff otherQueue).mp otherConsulted
            rw [(drive_of_decided deliver granted decides).2,
              (drive_of_decided otherDeliver granted otherDecides).2,
              actions_of_decided deliver granted decides,
              actions_of_decided otherDeliver granted otherDecides]
            rcases leftAlone.performs reaches decides shownBeside with
                ⟨after, endless⟩ | alike
            · rw [endless]
              exact .inl ⟨after, rfl⟩
            rcases alike.cases with
                ⟨progress, after, otherAfter, performed, otherPerformed,
                  besideAfter⟩ |
                  ⟨halt, after, otherAfter, failed, otherFailed, same⟩
            · rw [performed, otherPerformed]
              cases progress with
              | finished => exact .inr ⟨.ok besideAfter, rfl⟩
              | running =>
                  rw [← decides.turn_eq queue] at performed
                  rcases inductionHypothesis (.turn reaches queue performed)
                      besideAfter with
                      endless | ⟨ends, acts⟩
                  · exact .inl endless
                  · exact .inr ⟨ends, congrArg (decision :: ·) acts⟩
            · rw [failed, otherFailed]
              exact .inr ⟨.error same, rfl⟩
          · obtain ⟨silent, ends⟩ :=
              drive_of_unconsulted queue consulted deliver granted
            obtain ⟨otherSilent, otherEnds⟩ :=
              drive_of_unconsulted otherQueue otherConsulted otherDeliver
                granted
            rw [ends, otherEnds, actions_of_undecided deliver granted silent,
              actions_of_undecided otherDeliver granted otherSilent]
            exact .inr ⟨.error same, rfl⟩

end LeftAlone

/-- Nobody hears of anything. -/
def unheard : Deliver Unit :=
  fun _ _ => pure ()

/--
A parser whose run is left alone comes to what a new parser comes to that is given the same
table and the same tokens and runs without observers, unless it is still going on.
-/
theorem LeftAlone.starts
    {deliver : Deliver ω}
    {tokens : List Value}
    (leftAlone : LeftAlone deliver table frame.begun)
    (loaded : frame.parser.Loaded table tokens)
    (unused : frame.parser.ran = false)
    (unaccepted : frame.parser.accepted = false)
    (observers :
      ∀ listener ∈ frame.parser.registry.listeners,
        ∃ name, listener = .observer name)
    (granted : Nat) :
    (∃ last, Run.start deliver granted frame = .error .outOfSteps last) ∨
      (actions deliver (.table table) granted frame.begun =
          actions unheard (.table table) granted
            (Frame.alone table tokens frame.parser.verbose frame.store).begun ∧
        halt? (Run.start deliver granted) frame =
          halt? (Run.start unheard granted)
            (Frame.alone table tokens frame.parser.verbose frame.store) ∧
        (frameAfter (Run.start deliver granted) frame).SameParse
          (frameAfter (Run.start unheard granted)
            (Frame.alone table tokens frame.parser.verbose frame.store))) := by
  have begins := start_begins loaded.isLoaded unused deliver granted
  have otherBegins :
      Run.start unheard granted
          (Frame.alone table tokens frame.parser.verbose frame.store) =
        drive unheard (.table table) granted
          (Frame.alone table tokens frame.parser.verbose frame.store).begun :=
    start_begins rfl rfl unheard granted
  rw [loaded.held] at begins
  rcases leftAlone.drives .start
      (Frame.begun_beside loaded unaccepted observers) granted with
      endless | ⟨alike, acts⟩
  · rw [begins]
    exact .inl endless
  · refine .inr ⟨acts, ?_⟩
    simp only [halt?, frameAfter, begins, otherBegins]
    rcases alike.cases with
        ⟨result, after, otherAfter, ends, otherEnds, beside⟩ |
          ⟨halt, after, otherAfter, ends, otherEnds, same⟩
    · rw [ends, otherEnds]
      exact ⟨rfl, beside.toSameParse⟩
    · rw [ends, otherEnds]
      exact ⟨rfl, same⟩

end Run

end ShiftReduce
