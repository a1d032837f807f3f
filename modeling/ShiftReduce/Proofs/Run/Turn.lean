import ShiftReduce.Parser.Run
import ShiftReduce.Proofs.Parser.Situation

namespace ShiftReduce

/-!
# Turns taken apart

A turn consults the table, shows what it selected, tells the observers and acts.
Each part may end the turn.  `Run.turn_turned` lists the ways in which a turn can
end, so that whatever holds throughout a run is shown once for each of them:

* the action was carried out (`Run.Performs`), though showing the stacks
  afterwards may still fail,
* nothing was decided, and nothing but the trace has changed,
* telling the observers did not come to an end,
* the action broke off.
-/

namespace Frame

variable {ω : Type}

/-- The situation of the parser at work. -/
def situation
    (frame : Frame ω) :
    Situation :=
  frame.parser.situation

/-- One frame becomes another by printing alone. -/
structure PrintsTo
    (before after : Frame ω) :
    Prop where
  parser : after.parser = before.parser
  store : after.store = before.store
  world : after.world = before.world

theorem PrintsTo.refl
    (frame : Frame ω) :
    frame.PrintsTo frame :=
  ⟨rfl, rfl, rfl⟩

theorem PrintsTo.trans
    {first second third : Frame ω}
    (before : first.PrintsTo second)
    (after : second.PrintsTo third) :
    first.PrintsTo third :=
  ⟨after.parser.trans before.parser, after.store.trans before.store,
    after.world.trans before.world⟩

theorem PrintsTo.situation
    {before after : Frame ω}
    (prints : before.PrintsTo after) :
    after.situation = before.situation :=
  congrArg Parser.situation prints.parser

end Frame

/-- Whether a run goes on once a decision is carried out. -/
def Decision.progress :
    Decision → Progress
  | .accept _ => .finished
  | _ => .running

namespace Run

variable {ω α β : Type}

/-- The frame in which an activity ends, whether it fails or not. -/
def frameAfter
    (run : Run ω α)
    (frame : Frame ω) :
    Frame ω :=
  match run frame with
  | .ok _ after => after
  | .error _ after => after

theorem frameAfter_of_ok
    {run : Run ω α}
    {frame after : Frame ω}
    {result : α}
    (ends : run frame = .ok result after) :
    frameAfter run frame = after := by
  simp [frameAfter, ends]

theorem frameAfter_of_error
    {run : Run ω α}
    {frame after : Frame ω}
    {halt : Halt}
    (ends : run frame = .error halt after) :
    frameAfter run frame = after := by
  simp [frameAfter, ends]

/-- After an activity that succeeds, the next one goes on from its state. -/
theorem bind_of_ok
    {σ : Type}
    {first : Activity σ α}
    {next : α → Activity σ β}
    {before after : σ}
    {result : α}
    (ends : first before = .ok result after) :
    (first >>= next) before = next result after := by
  simp only [bind, EStateM.bind, ends]

/-- Nothing follows an activity that fails. -/
theorem bind_of_error
    {σ : Type}
    {first : Activity σ α}
    {next : α → Activity σ β}
    {before after : σ}
    {halt : Halt}
    (ends : first before = .error halt after) :
    (first >>= next) before = .error halt after := by
  simp only [bind, EStateM.bind, ends]

/-- Two activities that come to the same are followed by the same. -/
theorem bind_of_eq
    {σ : Type}
    {first second : Activity σ α}
    {next : α → Activity σ β}
    {before : σ}
    (same : first before = second before) :
    (first >>= next) before = (second >>= next) before := by
  simp only [bind, EStateM.bind, same]

theorem parser_ok
    (frame : Frame ω) :
    parser frame = .ok frame.parser frame :=
  rfl

theorem store_ok
    (frame : Frame ω) :
    store frame = .ok frame.store frame :=
  rfl

theorem modify_ok
    (change : Frame ω → Frame ω)
    (frame : Frame ω) :
    (modify change : Run ω PUnit) frame = .ok () (change frame) :=
  rfl

theorem demand_ok
    (result : α)
    (frame : Frame ω) :
    demand (.ok result) frame = .ok result frame :=
  rfl

theorem demand_error
    (cause : Fault)
    (frame : Frame ω) :
    (demand (.error cause) : Run ω α) frame =
      .error (.fault (frame.store.settle cause)) frame :=
  rfl

/-- A relation that two activities respect is respected by one after the other. -/
theorem frameAfter_bind
    (relation : Frame ω → Frame ω → Prop)
    (trans :
      ∀ {earlier middle later},
        relation earlier middle → relation middle later →
          relation earlier later)
    {first : Run ω α}
    {next : α → Run ω β}
    {frame : Frame ω}
    (atFirst : relation frame (frameAfter first frame))
    (atNext :
      ∀ result after,
        first frame = .ok result after →
          relation after (frameAfter (next result) after)) :
    relation frame (frameAfter (first >>= next) frame) := by
  cases ends : first frame with
  | error halt after =>
      rw [frameAfter_of_error (bind_of_error ends)]
      rwa [frameAfter_of_error ends] at atFirst
  | ok result after =>
      have same :
          frameAfter (first >>= next) frame = frameAfter (next result) after := by
        simp only [frameAfter, bind_of_ok ends]
      rw [same]
      rw [frameAfter_of_ok ends] at atFirst
      exact trans atFirst (atNext result after ends)

/-- A block without a misfit is printed to its end. -/
theorem print_of_fit
    {block : TraceBlock}
    {frame : Frame ω}
    (fits : (block.resolve frame.store).misfit? = none) :
    print block frame =
      .ok ()
        { frame with trace := block.resolve frame.store :: frame.trace } := by
  unfold print
  rw [bind_of_ok (store_ok frame)]
  refine (bind_of_ok (modify_ok _ frame)).trans ?_
  rw [fits]
  rfl

/-- A block with a misfit is printed up to it. -/
theorem print_of_misfit
    {block : TraceBlock}
    {frame : Frame ω}
    {misfit : Misfit}
    (unfit : (block.resolve frame.store).misfit? = some misfit) :
    print block frame =
      .error (.fault (.misfit misfit))
        { frame with trace := block.resolve frame.store :: frame.trace } := by
  unfold print
  rw [bind_of_ok (store_ok frame)]
  refine (bind_of_ok (modify_ok _ frame)).trans ?_
  rw [unfit]
  rfl

theorem print_ok
    {block : TraceBlock}
    {frame : Frame ω}
    (fits : (block.resolve frame.store).misfit? = none) :
    ∃ after, print block frame = .ok () after ∧ frame.PrintsTo after :=
  ⟨_, print_of_fit fits, rfl, rfl, rfl⟩

/-- Printing a block changes the trace alone. -/
theorem print_printsTo
    (block : TraceBlock)
    (frame : Frame ω) :
    frame.PrintsTo (frameAfter (print block) frame) := by
  cases fits : (block.resolve frame.store).misfit? with
  | none =>
      rw [frameAfter_of_ok (print_of_fit fits)]
      exact ⟨rfl, rfl, rfl⟩
  | some misfit =>
      rw [frameAfter_of_error (print_of_misfit fits)]
      exact ⟨rfl, rfl, rfl⟩

theorem printStack_eq
    (frame : Frame ω) :
    printStack frame =
      if frame.parser.verbose then
        print frame.parser.stackBlock frame
      else
        .ok () frame := by
  change
    (if frame.parser.verbose then
      print frame.parser.stackBlock
    else
      pure ()) frame = _
  split
  · rfl
  · rfl

theorem printSelection_eq
    (selection : Selection)
    (frame : Frame ω) :
    printSelection selection frame =
      if frame.parser.verbose then
        (do
          print frame.parser.stackBlock
          print (.lookahead selection.token)
          print (.action selection.action) : Run ω Unit) frame
      else
        .ok () frame := by
  change
    (if frame.parser.verbose then do
      print frame.parser.stackBlock
      print (.lookahead selection.token)
      print (.action selection.action)
    else
      pure ()) frame = _
  split
  · rfl
  · rfl

/-- Showing the stacks changes the trace alone. -/
theorem printStack_printsTo
    (frame : Frame ω) :
    frame.PrintsTo (frameAfter printStack frame) := by
  by_cases verbose : frame.parser.verbose = true
  · simp only [frameAfter, printStack_eq, verbose, if_true]
    exact print_printsTo frame.parser.stackBlock frame
  · simp only [frameAfter, printStack_eq, verbose]
    exact .refl frame

/-- Showing what was selected changes the trace alone. -/
theorem printSelection_printsTo
    (selection : Selection)
    (frame : Frame ω) :
    frame.PrintsTo (frameAfter (printSelection selection) frame) := by
  by_cases verbose : frame.parser.verbose = true
  · simp only [frameAfter, printSelection_eq, verbose, if_true]
    apply frameAfter_bind Frame.PrintsTo .trans (print_printsTo _ _)
    intro _ first _
    apply frameAfter_bind Frame.PrintsTo .trans (print_printsTo _ _)
    intro _ second _
    exact print_printsTo _ _
  · simp only [frameAfter, printSelection_eq, verbose]
    exact .refl frame

/-- Stacks without a misfit are shown if the parser is verbose. -/
theorem printStack_ok
    {frame : Frame ω}
    (fits : (frame.parser.stackBlock.resolve frame.store).misfit? = none) :
    ∃ after, printStack frame = .ok () after ∧ frame.PrintsTo after := by
  by_cases verbose : frame.parser.verbose = true
  · simp only [printStack_eq, verbose, if_true]
    exact print_ok fits
  · exact ⟨frame, by simp [printStack_eq, verbose], .refl frame⟩

/-- A selection without a misfit is shown if the parser is verbose. -/
theorem printSelection_ok
    {selection : Selection}
    {frame : Frame ω}
    (stackFits : (frame.parser.stackBlock.resolve frame.store).misfit? = none)
    (lookaheadFits :
      ((TraceBlock.lookahead selection.token).resolve
        frame.store).misfit? = none)
    (actionFits :
      ((TraceBlock.action selection.action).resolve
        frame.store).misfit? = none) :
    ∃ after,
      printSelection selection frame = .ok () after ∧
        frame.PrintsTo after := by
  by_cases verbose : frame.parser.verbose = true
  · simp only [printSelection_eq, verbose, if_true]
    obtain ⟨first, printed, prints⟩ := print_ok stackFits
    rw [← prints.store] at lookaheadFits
    obtain ⟨second, printedToken, printsToken⟩ := print_ok lookaheadFits
    rw [← (prints.trans printsToken).store] at actionFits
    obtain ⟨third, printedAction, printsAction⟩ := print_ok actionFits
    rw [bind_of_ok printed, bind_of_ok printedToken]
    exact
      ⟨third, printedAction, (prints.trans printsToken).trans printsAction⟩
  · exact ⟨frame, by simp [printSelection_eq, verbose], .refl frame⟩

/-- A parser at work comes to a decision, and shows what led to it. -/
inductive Decides
    (table : Value)
    (before : Frame ω) :
    Decision → Frame ω → Prop where
  | intro
      {token : Value}
      {rest : List Value}
      {selection : Selection}
      {decision : Decision}
      {shown : Frame ω}
      (lookahead : before.parser.pending = token :: rest)
      (selected :
        before.parser.select before.store table token = .ok selection)
      (printed : printSelection selection before = .ok () shown)
      (decided :
        before.parser.decision before.store selection = .ok decision) :
      Decides table before decision shown

/-- Coming to a decision changes the trace alone. -/
theorem Decides.printsTo
    {table : Value}
    {before shown : Frame ω}
    {decision : Decision}
    (decides : Decides table before decision shown) :
    before.PrintsTo shown := by
  cases decides with
  | @intro token rest selection _ _ lookahead selected printed decided =>
      have prints := printSelection_printsTo selection before
      rwa [frameAfter_of_ok printed] at prints

/-- A table sanctions every decision that it leads to. -/
theorem Decides.sanctioned
    {table : Table}
    {before shown : Frame ω}
    {decision : Decision}
    (decides : Decides (.table table) before decision shown) :
    before.situation.Sanctions table before.store decision := by
  cases decides with
  | intro lookahead selected printed decided =>
      exact Parser.decision_sanctioned lookahead selected decided

theorem Decides.lookahead
    {table : Value}
    {before shown : Frame ω}
    {decision : Decision}
    (decides : Decides table before decision shown) :
    ∃ token rest, before.parser.pending = token :: rest := by
  cases decides with
  | intro lookahead selected printed decided => exact ⟨_, _, lookahead⟩

/-- A parser at work comes to one decision only. -/
theorem Decides.unique
    {table : Value}
    {before shown otherShown : Frame ω}
    {decision otherDecision : Decision}
    (decides : Decides table before decision shown)
    (decidesOther : Decides table before otherDecision otherShown) :
    decision = otherDecision ∧ shown = otherShown := by
  cases decides with
  | intro lookahead selected printed decided =>
      cases decidesOther with
      | intro otherLookahead otherSelected otherPrinted otherDecided =>
          rw [lookahead] at otherLookahead
          cases otherLookahead
          rw [selected] at otherSelected
          cases otherSelected
          rw [printed] at otherPrinted
          cases otherPrinted
          rw [decided] at otherDecided
          cases otherDecided
          exact ⟨rfl, rfl⟩

/-- A parser at work decides on an action, tells its observers, and carries it out. -/
inductive Performs
    (deliver : Deliver ω)
    (table : Value)
    (before : Frame ω) :
    Decision → Frame ω → Prop where
  | intro
      {decision : Decision}
      {shown told after : Frame ω}
      {parser : Parser}
      (decides : Decides table before decision shown)
      (notified : notify deliver decision.event shown = .ok () told)
      (committed : Parser.commit decision told.parser = .ok () parser)
      (prints : { told with parser := parser }.PrintsTo after) :
      Performs deliver table before decision after

/-- What a parser at work carries out is what it has decided on. -/
theorem Performs.unique
    {deliver : Deliver ω}
    {table : Value}
    {before shown after : Frame ω}
    {decision otherDecision : Decision}
    (performs : Performs deliver table before decision after)
    (decides : Decides table before otherDecision shown) :
    decision = otherDecision := by
  cases performs with
  | intro decidesSame notified committed prints =>
      exact (decidesSame.unique decides).1

/-- The ways in which a turn can end. -/
inductive Turned
    (deliver : Deliver ω)
    (table : Value)
    (before : Frame ω) :
    EStateM.Result Halt (Frame ω) Progress → Prop where
  | performed
      {decision : Decision}
      {progress : Progress}
      {after : Frame ω}
      (performs : Performs deliver table before decision after)
      (goesOn : progress = decision.progress) :
      Turned deliver table before (.ok progress after)
  | unshown
      {decision : Decision}
      {halt : Halt}
      {after : Frame ω}
      (performs : Performs deliver table before decision after) :
      Turned deliver table before (.error halt after)
  | undecided
      {halt : Halt}
      {after : Frame ω}
      (prints : before.PrintsTo after) :
      Turned deliver table before (.error halt after)
  | interrupted
      {decision : Decision}
      {halt : Halt}
      {shown after : Frame ω}
      (decides : Decides table before decision shown)
      (interrupted :
        notify deliver decision.event shown = .error halt after) :
      Turned deliver table before (.error halt after)
  | broken
      {decision : Decision}
      {halt : Halt}
      {cause : Fault}
      {shown told : Frame ω}
      {parser : Parser}
      (decides : Decides table before decision shown)
      (notified : notify deliver decision.event shown = .ok () told)
      (broken : Parser.commit decision told.parser = .error cause parser) :
      Turned deliver table before
        (.error halt { told with parser := parser })

section Committed

variable
  {deliver : Deliver ω}
  {shown told : Frame ω}
  {decision : Decision}
  {parser : Parser}
  (notified : notify deliver decision.event shown = .ok () told)
  (committed : Parser.commit decision told.parser = .ok () parser)

include notified committed

/-- Once an action is carried out, only a reduction has something more to show. -/
theorem perform_eq :
    perform deliver decision shown =
      match decision with
      | .reduce .. =>
          (printStack >>= fun _ => pure .running) { told with parser := parser }
      | other => .ok other.progress { told with parser := parser } := by
  have ends :
      operate (Parser.commit decision) told =
        .ok () { told with parser := parser } := by
    simp only [operate, committed]
  unfold perform
  rw [bind_of_ok notified, bind_of_ok ends]
  cases decision with
  | shift state token next => rfl
  | accept state => rfl
  | reduce state production next => rfl

/-- Where the stacks can be shown, an action that is carried out ends its turn well. -/
theorem perform_of_shown
    (shows : ∃ after, printStack { told with parser := parser } = .ok () after) :
    ∃ after,
      { told with parser := parser }.PrintsTo after ∧
        perform deliver decision shown = .ok decision.progress after := by
  rw [perform_eq notified committed]
  cases decision with
  | shift state token next => exact ⟨_, .refl _, rfl⟩
  | accept state => exact ⟨_, .refl _, rfl⟩
  | reduce state production next =>
      obtain ⟨after, printed⟩ := shows
      have prints := printStack_printsTo { told with parser := parser }
      rw [frameAfter_of_ok printed] at prints
      exact ⟨after, prints, bind_of_ok printed⟩

/-- An action of which everyone has been told, and which can be carried out, is carried out. -/
theorem perform_of_committed :
    ∃ after,
      { told with parser := parser }.PrintsTo after ∧
        (perform deliver decision shown = .ok decision.progress after ∨
          ∃ halt, perform deliver decision shown = .error halt after) := by
  cases shows : printStack ({ told with parser := parser } : Frame ω) with
  | ok result after =>
      obtain ⟨last, prints, performed⟩ :=
        perform_of_shown notified committed ⟨after, shows⟩
      exact ⟨last, prints, .inl performed⟩
  | error halt after =>
      rw [perform_eq notified committed]
      cases decision with
      | shift state token next => exact ⟨_, .refl _, .inl rfl⟩
      | accept state => exact ⟨_, .refl _, .inl rfl⟩
      | reduce state production next =>
          have prints := printStack_printsTo { told with parser := parser }
          rw [frameAfter_of_error shows] at prints
          exact ⟨after, prints, .inr ⟨halt, bind_of_error shows⟩⟩

end Committed

/-- An action of which everyone has been told may break off all the same. -/
theorem perform_of_broken
    {deliver : Deliver ω}
    {shown told : Frame ω}
    {decision : Decision}
    {cause : Fault}
    {parser : Parser}
    (notified : notify deliver decision.event shown = .ok () told)
    (broken : Parser.commit decision told.parser = .error cause parser) :
    perform deliver decision shown =
      .error (.fault (told.store.settle cause))
        { told with parser := parser } := by
  have ends :
      operate (Parser.commit decision) told =
        .error (.fault (told.store.settle cause))
          { told with parser := parser } := by
    simp only [operate, broken]
    rfl
  unfold perform
  rw [bind_of_ok notified, bind_of_error ends]

/-- An action of which not everyone could be told is not begun. -/
theorem perform_of_interrupted
    {deliver : Deliver ω}
    {shown after : Frame ω}
    {decision : Decision}
    {halt : Halt}
    (interrupted : notify deliver decision.event shown = .error halt after) :
    perform deliver decision shown = .error halt after := by
  unfold perform
  exact bind_of_error interrupted

/-- Once decided on, an action is carried out, broken off, or never begun. -/
theorem perform_turned
    {deliver : Deliver ω}
    {table : Value}
    {before shown : Frame ω}
    {decision : Decision}
    (decides : Decides table before decision shown) :
    Turned deliver table before (perform deliver decision shown) := by
  cases notified : notify deliver decision.event shown with
  | error halt after =>
      rw [perform_of_interrupted notified]
      exact .interrupted decides notified
  | ok result told =>
      cases committed : Parser.commit decision told.parser with
      | error cause parser =>
          rw [perform_of_broken notified committed]
          exact .broken decides notified committed
      | ok result parser =>
          obtain ⟨after, prints, performed | ⟨halt, unshown⟩⟩ :=
            perform_of_committed notified committed
          · rw [performed]
            exact .performed (.intro decides notified committed prints) rfl
          · rw [unshown]
            exact .unshown (.intro decides notified committed prints)

/-- Every turn ends in one of these ways. -/
theorem turn_turned
    {token : Value}
    {rest : List Value}
    {before : Frame ω}
    (lookahead : before.parser.pending = token :: rest)
    (deliver : Deliver ω)
    (table : Value) :
    Turned deliver table before (turn deliver table token before) := by
  change
    Turned deliver table before
      ((demand (before.parser.select before.store table token) >>=
        fun selection =>
          printSelection selection >>= fun _ =>
            demand (before.parser.decision before.store selection) >>=
              perform deliver) before)
  cases selected : before.parser.select before.store table token with
  | error cause =>
      rw [bind_of_error (demand_error cause before)]
      exact .undecided (.refl before)
  | ok selection =>
      rw [bind_of_ok (demand_ok selection before)]
      have prints := printSelection_printsTo selection before
      cases printed : printSelection selection before with
      | error halt shown =>
          rw [frameAfter_of_error printed] at prints
          rw [bind_of_error printed]
          exact .undecided prints
      | ok result shown =>
          rw [frameAfter_of_ok printed] at prints
          rw [bind_of_ok printed]
          cases decided : before.parser.decision before.store selection with
          | error cause =>
              rw [bind_of_error (demand_error cause shown)]
              exact .undecided prints
          | ok decision =>
              rw [bind_of_ok (demand_ok decision shown)]
              exact perform_turned
                (.intro lookahead selected printed decided)

/-- Once a parser has come to a decision, the rest of the turn is to perform it. -/
theorem Decides.turn_eq
    {table token : Value}
    {rest : List Value}
    {before shown : Frame ω}
    {decision : Decision}
    (decides : Decides table before decision shown)
    (lookahead : before.parser.pending = token :: rest)
    (deliver : Deliver ω) :
    turn deliver table token before = perform deliver decision shown := by
  cases decides with
  | @intro first others selection _ _ queue selected printed decided =>
      rw [lookahead] at queue
      cases queue
      change
        (demand (before.parser.select before.store table token) >>=
          fun selection =>
            printSelection selection >>= fun _ =>
              demand (before.parser.decision before.store selection) >>=
                perform deliver) before = _
      rw [selected, bind_of_ok (demand_ok selection before),
        bind_of_ok printed, decided, bind_of_ok (demand_ok decision shown)]

/-- With a lookahead in the queue, a run takes a turn and then goes on or not. -/
theorem drive_of_lookahead
    {token : Value}
    {rest : List Value}
    {frame : Frame ω}
    (lookahead : frame.parser.pending = token :: rest)
    (deliver : Deliver ω)
    (table : Value)
    (granted : Nat) :
    drive deliver table (granted + 1) frame =
      match turn deliver table token frame with
      | .ok .finished after => .ok () after
      | .ok .running after => drive deliver table granted after
      | .error halt after => .error halt after := by
  rw [drive, bind_of_ok (parser_ok frame), lookahead]
  cases turned : turn deliver table token frame with
  | error halt after =>
      exact bind_of_error turned
  | ok progress after =>
      cases progress with
      | finished =>
          exact bind_of_ok turned
      | running =>
          exact bind_of_ok turned

/-- With nothing in the queue, a run ends with a fault and leaves the frame as it is. -/
theorem drive_of_nothing
    {frame : Frame ω}
    (exhausts : frame.parser.pending = [])
    (deliver : Deliver ω)
    (table : Value)
    (granted : Nat) :
    drive deliver table (granted + 1) frame =
      match frame.parser.topState with
      | .ok state =>
          .error
            (.fault
              (frame.store.settle (.malformedTable (.inputExhausted state))))
            frame
      | .error cause => .error (.fault (frame.store.settle cause)) frame := by
  rw [drive, bind_of_ok (parser_ok frame), exhausts]
  change
    (demand frame.parser.topState >>= fun state =>
      fail (.malformedTable (.inputExhausted state))) frame = _
  cases top : frame.parser.topState with
  | error cause =>
      exact bind_of_error (demand_error cause frame)
  | ok state =>
      exact bind_of_ok (demand_ok state frame)

end Run

end ShiftReduce
