import ShiftReduce.Proofs.Run.Steady

namespace ShiftReduce.Run

/-!
# Two runs side by side

Two parsers with one table, whose inputs agree up to a point, stay abreast of each other
until they get there: behind a mask, they come to the same verdicts, carry out the same
actions, and end in the same way (`Run.Tandem.drives`, `Run.Tandem.drives_until`).
Observers may differ between the two runs in any way.
-/

variable
  {ω ψ : Type}
  {mask : Mask}
  {deliver : Deliver ω}
  {other : Deliver ψ}
  {table : Table}
  {start frame : Frame ω}
  {otherStart otherFrame : Frame ψ}
  {input otherInput : List Token}
  {ahead : Nat}
  {left right : List Value}

/--
Two steady runs with one table that looks the same to both.  Tokens that cannot be told
apart behind the mask cannot be told apart as they look either.
-/
structure Tandem
    (mask : Mask)
    (deliver : Deliver ω)
    (other : Deliver ψ)
    (table : Table)
    (start : Frame ω)
    (otherStart : Frame ψ)
    (input otherInput : List Token) :
    Prop where
  proper : table.HasProperHeads
  first : Steady deliver table start input
  second : Steady other table otherStart otherInput
  look : table.SameLook start.store otherStart.store
  masked :
    ∀ frame otherFrame,
      Reaches deliver (.table table) start frame →
        Reaches other (.table table) otherStart otherFrame →
        ∀ token ∈ input,
          ∀ otherToken ∈ otherInput,
            mask.hide otherToken = mask.hide token →
              mask.value (otherFrame.store.resolve (.token otherToken)) =
                mask.value (frame.store.resolve (.token token))

/-- Two runs have come to twin situations, with a number of twin tokens ahead. -/
structure Abreast
    (mask : Mask)
    (deliver : Deliver ω)
    (other : Deliver ψ)
    (table : Table)
    (start : Frame ω)
    (otherStart : Frame ψ)
    (input otherInput : List Token)
    (ahead : Nat)
    (left right : List Value)
    (frame : Frame ω)
    (otherFrame : Frame ψ) :
    Prop where
  reaches : Reaches deliver (.table table) start frame
  otherReaches : Reaches other (.table table) otherStart otherFrame
  within : frame.situation.Within table input
  otherWithin : otherFrame.situation.Within table otherInput
  twins :
    Situation.Twins mask ahead left right frame.situation otherFrame.situation
  accepted : otherFrame.parser.accepted = frame.parser.accepted

/-- Two parsers begin abreast, as far as their inputs cannot be told apart. -/
theorem Reads.abreast
    (reads : Reads deliver table input frame)
    (otherReads : Reads other table otherInput otherFrame)
    (inside : ahead ≤ input.length)
    (same :
      (otherInput.take ahead).map mask.hide =
        (input.take ahead).map mask.hide) :
    Abreast mask deliver other table frame.begun otherFrame.begun input
      otherInput ahead ((input.drop ahead).map .token)
      ((otherInput.drop ahead).map .token) frame.begun otherFrame.begun where
  reaches := .start
  otherReaches := .start
  within := reads.loaded.within
  otherWithin := otherReads.loaded.within
  twins := by
    refine ⟨?_, ?_, input.take ahead, otherInput.take ahead, ?_, ?_, ?_, same⟩
    · exact otherReads.loaded.states.trans reads.loaded.states.symm
    · change otherFrame.parser.symbols.map _ = frame.parser.symbols.map _
      rw [otherReads.loaded.symbols, reads.loaded.symbols]
    · exact List.length_take_of_le inside
    · rw [← List.map_append, List.take_append_drop]
      exact reads.loaded.pending
    · rw [← List.map_append, List.take_append_drop]
      exact otherReads.loaded.pending
  accepted := otherReads.unaccepted.trans reads.unaccepted.symm

/-- Two activities end alike, so far as can be told behind a mask. -/
structure EndAlike
    (mask : Mask)
    (left right : List Value)
    (run : Run ω Unit)
    (otherRun : Run ψ Unit)
    (frame : Frame ω)
    (otherFrame : Frame ψ) :
    Prop where
  halt :
    (halt? otherRun otherFrame).map mask.halt =
      (halt? run frame).map mask.halt
  twins :
    ∃ ahead,
      Situation.Twins mask ahead left right (frameAfter run frame).situation
        (frameAfter otherRun otherFrame).situation
  accepted :
    (frameAfter otherRun otherFrame).parser.accepted =
      (frameAfter run frame).parser.accepted

/-- Activities that come to the same as others end alike if those do. -/
theorem EndAlike.congr
    {run before : Run ω Unit}
    {otherRun otherBefore : Run ψ Unit}
    {first : Frame ω}
    {second : Frame ψ}
    (alike : EndAlike mask left right run otherRun frame otherFrame)
    (same : before first = run frame)
    (otherSame : otherBefore second = otherRun otherFrame) :
    EndAlike mask left right before otherBefore first second := by
  constructor
  · simpa only [halt?, same, otherSame] using alike.halt
  · simpa only [frameAfter, same, otherSame] using alike.twins
  · simpa only [frameAfter, same, otherSame] using alike.accepted

/-- Two parsers take a turn alike, so far as can be told behind a mask. -/
inductive TurnAlike
    (mask : Mask)
    (deliver : Deliver ω)
    (other : Deliver ψ)
    (table : Table)
    (ahead : Nat)
    (left right : List Value)
    (frame : Frame ω)
    (otherFrame : Frame ψ)
    (next : Nat → Frame ω → Frame ψ → Prop) :
    Prop where
  | fault
      {cause otherCause : Fault}
      (refused : frame.parser.verdict frame.store table = .error cause)
      (otherRefused :
        otherFrame.parser.verdict otherFrame.store table = .error otherCause)
      (masked : mask.fault otherCause = mask.fault cause) :
      TurnAlike mask deliver other table ahead left right frame otherFrame next
  | action
      {decision otherDecision : Decision}
      {shown after : Frame ω}
      {otherShown otherAfter : Frame ψ}
      (masked : mask.decision otherDecision = mask.decision decision)
      (decides : Decides (.table table) frame decision shown)
      (otherDecides :
        Decides (.table table) otherFrame otherDecision otherShown)
      (performed :
        perform deliver decision shown = .ok decision.progress after)
      (otherPerformed :
        perform other otherDecision otherShown =
          .ok decision.progress otherAfter)
      (twins :
        Situation.Twins mask (decision.leaves ahead) left right
          after.situation otherAfter.situation)
      (accepted : otherAfter.parser.accepted = after.parser.accepted)
      (continues :
        decision.progress = .running →
          next (decision.leaves ahead) after otherAfter) :
      TurnAlike mask deliver other table ahead left right frame otherFrame next

namespace Tandem

variable
  (tandem : Tandem mask deliver other table start otherStart input otherInput)
  (abreast :
    Abreast mask deliver other table start otherStart input otherInput ahead
      left right frame otherFrame)

include tandem abreast

/-- Runs that are abreast, with something ahead or nothing to come, agree on what is next. -/
theorem verdicts
    (near : 0 < ahead ∨ left = [] ∧ right = []) :
    mask.verdict (otherFrame.parser.verdict otherFrame.store table) =
      mask.verdict (frame.parser.verdict frame.store table) := by
  have look : table.SameLook frame.store otherFrame.store :=
    (tandem.first.look frame abreast.reaches).symm.trans
      (tandem.look.trans (tandem.second.look otherFrame abreast.otherReaches))
  refine Parser.verdict_alike tandem.proper look abreast.twins.states
    abreast.twins.symbols_length abreast.within.known ?_
  obtain ⟨common, others, length, queue, otherQueue, same⟩ :=
    abreast.twins.pending
  cases common with
  | nil =>
      rcases near with some | ⟨rfl, rfl⟩
      · subst length
        cases some
      · rw [List.map_eq_nil_iff.mp same] at otherQueue
        exact .inl ⟨queue, otherQueue⟩
  | cons token rest =>
      cases others with
      | nil => cases same
      | cons otherToken otherRest =>
          have sameToken := (List.cons.inj same).1
          have member := abreast.within.lookahead queue
          have otherMember := abreast.otherWithin.lookahead otherQueue
          exact .inr ⟨token, _, otherToken, _, queue, otherQueue, sameToken,
            tandem.first.plain frame abreast.reaches token member,
            tandem.second.plain otherFrame abreast.otherReaches otherToken
              otherMember,
            tandem.masked frame otherFrame abreast.reaches
              abreast.otherReaches token member otherToken otherMember
              sameToken⟩

/-- Actions that cannot be told apart are carried out alike, and runs are abreast again. -/
theorem acts
    {decision otherDecision : Decision}
    {shown : Frame ω}
    {otherShown : Frame ψ}
    (near : 0 < ahead)
    (masked : mask.decision otherDecision = mask.decision decision)
    (decides : Decides (.table table) frame decision shown)
    (otherDecides :
      Decides (.table table) otherFrame otherDecision otherShown) :
    TurnAlike mask deliver other table ahead left right frame otherFrame
      fun ahead after otherAfter =>
        Abreast mask deliver other table start otherStart input otherInput
          ahead left right after otherAfter := by
  obtain ⟨after, performed, performs, within⟩ :=
    tandem.first.performs tandem.proper abreast.reaches abreast.within decides
  obtain ⟨otherAfter, otherPerformed, otherPerforms, otherWithin⟩ :=
    tandem.second.performs tandem.proper abreast.otherReaches
      abreast.otherWithin otherDecides
  have progress : otherDecision.progress = decision.progress := by
    rw [← mask.progress_decision, masked, mask.progress_decision]
  rw [progress] at otherPerformed
  have twins :=
    abreast.twins.moves near
      (tandem.first.undisturbed.moves abreast.reaches performs).2
      (tandem.second.undisturbed.moves abreast.otherReaches otherPerforms).2
      masked
  have accepted : otherAfter.parser.accepted = after.parser.accepted := by
    rw [accepted_of_performs tandem.first.undisturbed abreast.reaches performs,
      accepted_of_performs tandem.second.undisturbed abreast.otherReaches
        otherPerforms,
      progress, abreast.accepted]
  refine .action masked decides otherDecides performed otherPerformed twins
    accepted ?_
  intro running
  obtain ⟨token, rest, lookahead⟩ := decides.lookahead
  obtain ⟨otherToken, otherRest, otherLookahead⟩ := otherDecides.lookahead
  rw [running] at performed otherPerformed
  rw [← decides.turn_eq lookahead] at performed
  rw [← otherDecides.turn_eq otherLookahead] at otherPerformed
  exact ⟨.turn abreast.reaches lookahead performed,
    .turn abreast.otherReaches otherLookahead otherPerformed, within,
    otherWithin, twins, accepted⟩

/-- Runs that are abreast, with something ahead or nothing to come, take a turn alike. -/
theorem turns
    (near : 0 < ahead ∨ left = [] ∧ right = []) :
    TurnAlike mask deliver other table ahead left right frame otherFrame
      fun ahead after otherAfter =>
        Abreast mask deliver other table start otherStart input otherInput
          ahead left right after otherAfter := by
  have same := tandem.verdicts abreast near
  cases chosen : frame.parser.verdict frame.store table with
  | error cause =>
      cases otherChosen :
          otherFrame.parser.verdict otherFrame.store table with
      | ok otherDecision =>
          rw [chosen, otherChosen] at same
          cases same
      | error otherCause =>
          rw [chosen, otherChosen] at same
          exact .fault chosen otherChosen (Except.error.inj same)
  | ok decision =>
      cases otherChosen :
          otherFrame.parser.verdict otherFrame.store table with
      | error otherCause =>
          rw [chosen, otherChosen] at same
          cases same
      | ok otherDecision =>
          rw [chosen, otherChosen] at same
          obtain ⟨shown, decides⟩ :=
            tandem.first.shows.decides abreast.reaches chosen
          obtain ⟨otherShown, otherDecides⟩ :=
            tandem.second.shows.decides abreast.otherReaches otherChosen
          -- There is a lookahead, so that something is ahead if nothing is left.
          have some : 0 < ahead := by
            rcases near with some | ⟨rfl, rfl⟩
            · exact some
            · obtain ⟨token, rest, lookahead⟩ := decides.lookahead
              have length := abreast.twins.pending_length.1
              change frame.parser.pending.length = _ at length
              rw [lookahead] at length
              simp at length
              omega
          exact tandem.acts abreast some (Except.ok.inj same) decides
            otherDecides

/-- Where tokens are left that both runs had ahead of them, there were some before. -/
theorem near
    {granted : Nat}
    (stays :
      left.length <
          (frameAfter (drive deliver (.table table) granted)
            frame).parser.pending.length ∨
        right.length <
          (frameAfter (drive other (.table table) granted)
            otherFrame).parser.pending.length ∨
        left = [] ∧ right = []) :
    0 < ahead ∨ left = [] ∧ right = [] := by
  obtain ⟨length, otherLength⟩ := abreast.twins.pending_length
  change frame.parser.pending.length = _ at length
  change otherFrame.parser.pending.length = _ at otherLength
  rcases stays with first | second | nothing
  · have shrinks :=
      tandem.first.undisturbed.pending_le abreast.reaches granted
    left
    omega
  · have shrinks :=
      tandem.second.undisturbed.pending_le abreast.otherReaches granted
    left
    omega
  · exact .inr nothing

/-- Runs that are abreast and come to faults that cannot be told apart end alike. -/
theorem halts
    {cause otherCause : Fault}
    (refused : frame.parser.verdict frame.store table = .error cause)
    (otherRefused :
      otherFrame.parser.verdict otherFrame.store table = .error otherCause)
    (masked : mask.fault otherCause = mask.fault cause)
    (granted : Nat) :
    EndAlike mask left right (drive deliver (.table table) (granted + 1))
      (drive other (.table table) (granted + 1)) frame otherFrame := by
  obtain ⟨after, ended, prints⟩ :=
    tandem.first.shows.halts abreast.reaches refused granted
  obtain ⟨otherAfter, otherEnded, otherPrints⟩ :=
    tandem.second.shows.halts abreast.otherReaches otherRefused granted
  constructor
  · rw [halt?_of_error ended, halt?_of_error otherEnded]
    simp only [Option.map_some, Mask.halt, masked]
  · rw [frameAfter_of_error ended, frameAfter_of_error otherEnded,
      prints.situation, otherPrints.situation]
    exact ⟨ahead, abreast.twins⟩
  · rw [frameAfter_of_error ended, frameAfter_of_error otherEnded,
      prints.parser, otherPrints.parser]
    exact abreast.accepted

/--
Runs that are abreast carry out the same actions and end alike, if one of them ends before
it gets to what is left on its side, or if nothing is left on either side.
-/
theorem drives
    (granted : Nat)
    (stays :
      left.length <
          (frameAfter (drive deliver (.table table) granted)
            frame).parser.pending.length ∨
        right.length <
          (frameAfter (drive other (.table table) granted)
            otherFrame).parser.pending.length ∨
        left = [] ∧ right = []) :
    (actions other (.table table) granted otherFrame).map mask.decision =
        (actions deliver (.table table) granted frame).map mask.decision ∧
      EndAlike mask left right (drive deliver (.table table) granted)
        (drive other (.table table) granted) frame otherFrame := by
  induction granted generalizing frame otherFrame ahead with
  | zero => exact ⟨rfl, rfl, ⟨ahead, abreast.twins⟩, abreast.accepted⟩
  | succ granted inductionHypothesis =>
      cases tandem.turns abreast (tandem.near abreast stays) with
      | fault refused otherRefused masked =>
          refine ⟨?_,
            tandem.halts abreast refused otherRefused masked granted⟩
          rw [actions_of_undecided deliver granted
              (undecided_of_verdict refused),
            actions_of_undecided other granted
              (undecided_of_verdict otherRefused)]
      | @action decision _ _ after _ otherAfter masked decides otherDecides
          performed otherPerformed twins accepted continues =>
          have acts := actions_of_decided deliver granted decides
          have otherActs := actions_of_decided other granted otherDecides
          have driven := (drive_of_decided deliver granted decides).2
          have otherDriven := (drive_of_decided other granted otherDecides).2
          rw [performed] at acts driven
          rw [otherPerformed] at otherActs otherDriven
          cases progress : decision.progress with
          | finished =>
              rw [progress] at acts driven otherActs otherDriven
              refine ⟨?_, ?_, ?_, ?_⟩
              · rw [acts, otherActs]
                simp [masked]
              · rw [halt?_of_ok driven, halt?_of_ok otherDriven]
              · rw [frameAfter_of_ok driven, frameAfter_of_ok otherDriven]
                exact ⟨_, twins⟩
              · rw [frameAfter_of_ok driven, frameAfter_of_ok otherDriven]
                exact accepted
          | running =>
              rw [progress] at acts driven otherActs otherDriven
              simp only [frameAfter, driven, otherDriven] at stays
              obtain ⟨restActs, restEnds⟩ :=
                inductionHypothesis (continues progress) stays
              refine ⟨?_, restEnds.congr driven otherDriven⟩
              rw [acts, otherActs]
              simp only [List.map_cons, masked, restActs]

/-- Runs that are abreast carry out the same actions until all that is ahead is shifted. -/
theorem drives_until
    (granted : Nat) :
    (Decision.throughShift ahead
        (actions other (.table table) granted otherFrame)).map mask.decision =
      (Decision.throughShift ahead
        (actions deliver (.table table) granted frame)).map mask.decision := by
  induction granted generalizing frame otherFrame ahead with
  | zero => rfl
  | succ granted inductionHypothesis =>
      cases ahead with
      | zero => simp only [Decision.throughShift]
      | succ ahead =>
          cases tandem.turns abreast (.inl (Nat.succ_pos ahead)) with
          | fault refused otherRefused _ =>
              rw [actions_of_undecided deliver granted
                  (undecided_of_verdict refused),
                actions_of_undecided other granted
                  (undecided_of_verdict otherRefused)]
          | @action decision otherDecision _ _ _ _ masked decides otherDecides
              performed otherPerformed _ _ continues =>
              have sameLeft :
                  otherDecision.leaves (ahead + 1) =
                    decision.leaves (ahead + 1) := by
                rw [← mask.leaves_decision, masked, mask.leaves_decision]
              rw [actions_of_decided deliver granted decides,
                actions_of_decided other granted otherDecides, performed,
                otherPerformed]
              simp only [List.map_cons, Decision.throughShift, masked,
                sameLeft]
              congr 1
              cases progress : decision.progress with
              | finished => rfl
              | running => exact inductionHypothesis (continues progress)

end Tandem

end ShiftReduce.Run
