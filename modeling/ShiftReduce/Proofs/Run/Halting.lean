import ShiftReduce.Proofs.Run.Course

namespace ShiftReduce.Run

/-!
# What a run halts by

A run halts by what one of its callbacks halts by, or by a fault of its own: the table gives
no answer, or none that can be carried out, something cannot be shown, a listener is no
observer, an action breaks off, or there are no tokens left (`Run.Halts`).  Apart from its
callbacks it never halts for want of steps, unless those that it was granted are used up
(`Run.drive_halts`).
-/

variable
  {ω : Type}
  {deliver : Deliver ω}
  {table : Value}
  {start before frame after : Frame ω}
  {halt : Halt}

/-- The ways in which a run halts that has come to a frame, and where that leaves it. -/
inductive Halts
    (deliver : Deliver ω)
    (table : Value)
    (before : Frame ω) :
    Halt → Frame ω → Prop where
  | exhausted
      {cause : Fault}
      (noRefusal : cause.category ≠ .parse) :
      Halts deliver table before (.fault (before.store.settle cause)) before
  | unselected
      {token : Value}
      {cause : Fault}
      (refused : before.parser.select before.store table token = .error cause) :
      Halts deliver table before (.fault (before.store.settle cause)) before
  | undecided
      {token : Value}
      {rest : List Value}
      {selection : Selection}
      {cause : Fault}
      {after : Frame ω}
      (lookahead : before.parser.pending = token :: rest)
      (selected : before.parser.select before.store table token = .ok selection)
      (prints : before.PrintsTo after)
      (refused : before.parser.decision before.store selection = .error cause) :
      Halts deliver table before (.fault (before.store.settle cause)) after
  | unshown
      {misfit : Misfit}
      {after : Frame ω}
      (prints : before.PrintsTo after) :
      Halts deliver table before (.fault (.misfit misfit)) after
  | reducedUnshown
      {decision : Decision}
      {misfit : Misfit}
      {after : Frame ω}
      (performs : Performs deliver table before decision after)
      (goesOn : decision.progress = .running) :
      Halts deliver table before (.fault (.misfit misfit)) after
  | unheard
      {decision : Decision}
      {typeName member : String}
      {shown after : Frame ω}
      (decides : Decides table before decision shown)
      (interrupted :
        notify deliver decision.event shown =
          .error (.fault (.missingMember typeName member)) after) :
      Halts deliver table before (.fault (.missingMember typeName member)) after
  | raised
      {decision : Decision}
      {shown moment after : Frame ω}
      {name : String}
      {halt : Halt}
      (decides : Decides table before decision shown)
      (interrupted :
        notify deliver decision.event shown = .error halt after)
      (tells :
        Tells deliver decision.event shown.parser.registry.listeners shown
          name moment)
      (raised : deliver name decision.event moment = .error halt after) :
      Halts deliver table before halt after
  | broken
      {decision : Decision}
      {shown told : Frame ω}
      {cause : Fault}
      {parser : Parser}
      (decides : Decides table before decision shown)
      (notified : notify deliver decision.event shown = .ok () told)
      (broken : Parser.commit decision told.parser = .error cause parser) :
      Halts deliver table before (.fault (told.store.settle cause))
        { told with parser := parser }

section Printing

/-- Printing fails by a misfit only. -/
theorem print_halts
    {block : TraceBlock}
    (ended : print block frame = .error halt after) :
    ∃ misfit, halt = .fault (.misfit misfit) := by
  cases fits : (block.resolve frame.store).misfit? with
  | none =>
      rw [print_of_fit fits] at ended
      cases ended
  | some misfit =>
      rw [print_of_misfit fits] at ended
      cases ended
      exact ⟨misfit, rfl⟩

theorem printStack_halts
    (ended : printStack frame = .error halt after) :
    ∃ misfit, halt = .fault (.misfit misfit) := by
  rw [printStack_eq] at ended
  split at ended
  · exact print_halts ended
  · cases ended

theorem printSelection_halts
    {selection : Selection}
    (ended : printSelection selection frame = .error halt after) :
    ∃ misfit, halt = .fault (.misfit misfit) := by
  rw [printSelection_eq] at ended
  split at ended
  · cases stack : print frame.parser.stackBlock frame with
    | error _ _ =>
        rw [bind_of_error stack] at ended
        cases ended
        exact print_halts stack
    | ok _ first =>
        rw [bind_of_ok stack] at ended
        cases lookahead : print (.lookahead selection.token) first with
        | error _ _ =>
            rw [bind_of_error lookahead] at ended
            cases ended
            exact print_halts lookahead
        | ok _ second =>
            rw [bind_of_ok lookahead] at ended
            exact print_halts ended
  · cases ended

end Printing

/-- Telling listeners halts by what one of them raises, or by one that is no observer. -/
theorem tellAll_halts
    {event : Event}
    {listeners : List Listener}
    (ended : Listener.tellAll deliver event listeners frame = .error halt after) :
    (∃ name moment,
      Tells deliver event listeners frame name moment ∧
        deliver name event moment = .error halt after) ∨
      ∃ typeName member, halt = .fault (.missingMember typeName member) := by
  induction listeners generalizing frame with
  | nil => cases ended
  | cons listener rest inductionHypothesis =>
      change
        (listener.tell deliver event >>= fun _ =>
          Listener.tellAll deliver event rest) frame = _ at ended
      cases told : listener.tell deliver event frame with
      | error _ _ =>
          rw [bind_of_error told] at ended
          cases ended
          cases listener with
          | observer name => exact .inl ⟨name, frame, .now, told⟩
          | stranger value =>
              cases told
              exact .inr ⟨_, _, rfl⟩
      | ok _ next =>
          rw [bind_of_ok told] at ended
          rcases inductionHypothesis ended with ⟨name, moment, tells, raised⟩ | unheard
          · exact .inl ⟨name, moment, .later told tells, raised⟩
          · exact .inr unheard

/-- Once decided on, an action halts by what a callback raises, or by a fault of its own. -/
theorem perform_halts
    {decision : Decision}
    {shown : Frame ω}
    (decides : Decides table before decision shown)
    (ended : perform deliver decision shown = .error halt after) :
    Halts deliver table before halt after := by
  cases notified : notify deliver decision.event shown with
  | error _ _ =>
      rw [perform_of_interrupted notified] at ended
      cases ended
      rcases tellAll_halts notified with
          ⟨name, moment, tells, raised⟩ | ⟨typeName, member, rfl⟩
      · exact .raised decides notified tells raised
      · exact .unheard decides notified
  | ok _ told =>
      cases committed : Parser.commit decision told.parser with
      | error cause parser =>
          rw [perform_of_broken notified committed] at ended
          cases ended
          exact .broken decides notified committed
      | ok _ parser =>
          rw [perform_eq notified committed] at ended
          cases decision with
          | shift | accept => cases ended
          | reduce =>
              have prints := printStack_printsTo { told with parser := parser }
              cases shows : printStack { told with parser := parser } with
              | error _ _ =>
                  rw [frameAfter_of_error shows] at prints
                  rw [bind_of_error shows] at ended
                  cases ended
                  obtain ⟨misfit, rfl⟩ := printStack_halts shows
                  exact
                    .reducedUnshown (.intro decides notified committed prints) rfl
              | ok _ shown =>
                  rw [bind_of_ok shows] at ended
                  cases ended

/-- A turn that halts does so in one of these ways. -/
theorem turn_halts
    {token : Value}
    {rest : List Value}
    (lookahead : before.parser.pending = token :: rest)
    (ended : turn deliver table token before = .error halt after) :
    Halts deliver table before halt after := by
  change
    (demand (before.parser.select before.store table token) >>=
      fun selection =>
        printSelection selection >>= fun _ =>
          demand (before.parser.decision before.store selection) >>=
            perform deliver) before = _ at ended
  cases selected : before.parser.select before.store table token with
  | error cause =>
      rw [selected, bind_of_error (demand_error cause before)] at ended
      cases ended
      exact .unselected selected
  | ok selection =>
      rw [selected, bind_of_ok (demand_ok selection before)] at ended
      have prints := printSelection_printsTo selection before
      cases printed : printSelection selection before with
      | error _ _ =>
          rw [frameAfter_of_error printed] at prints
          rw [bind_of_error printed] at ended
          cases ended
          obtain ⟨misfit, rfl⟩ := printSelection_halts printed
          exact .unshown prints
      | ok _ shown =>
          rw [frameAfter_of_ok printed] at prints
          rw [bind_of_ok printed] at ended
          cases decided : before.parser.decision before.store selection with
          | error cause =>
              rw [decided, bind_of_error (demand_error cause shown),
                prints.store] at ended
              cases ended
              exact .undecided lookahead selected prints decided
          | ok decision =>
              rw [decided, bind_of_ok (demand_ok decision shown)] at ended
              exact perform_halts (.intro lookahead selected printed decided) ended

/-- A run halts in one of these ways, unless the turns that it was granted are used up. -/
theorem drive_halts
    {granted : Nat}
    (reaches : Reaches deliver table start frame)
    (ended : drive deliver table granted frame = .error halt after) :
    halt = .outOfSteps ∧ Reaches deliver table start after ∨
      ∃ last,
        Reaches deliver table start last ∧ Halts deliver table last halt after := by
  induction granted generalizing frame with
  | zero =>
      cases ended
      exact .inl ⟨rfl, reaches⟩
  | succ granted inductionHypothesis =>
      cases queue : frame.parser.pending with
      | nil =>
          rw [drive_of_nothing queue] at ended
          refine .inr ⟨frame, reaches, ?_⟩
          cases states : frame.parser.states with
          | nil =>
              simp only [Parser.topState, states] at ended
              cases ended
              exact .exhausted nofun
          | cons state below =>
              simp only [Parser.topState, states] at ended
              cases ended
              exact .exhausted nofun
      | cons token rest =>
          rw [drive_of_lookahead queue] at ended
          cases turned : turn deliver table token frame with
          | error _ _ =>
              rw [turned] at ended
              cases ended
              exact .inr ⟨frame, reaches, turn_halts queue turned⟩
          | ok progress next =>
              rw [turned] at ended
              cases progress with
              | finished => cases ended
              | running =>
                  exact inductionHypothesis (.turn reaches queue turned) ended

end ShiftReduce.Run
