import ShiftReduce.Proofs.Run.Announcement

namespace ShiftReduce.Run

/-!
# How a run goes on after a callback

Whatever an observer does in a callback, the rest of the run follows it: a callback that
halts ends the run (`Callback.halts`), and what holds from each part of the run to the
next holds from the end of the callback to the end of the run (`Callback.onward`).  A run
depends on its observers by way of its callbacks only (`drive_congr`).
-/

variable
  {ω : Type}
  {deliver : Deliver ω}
  {table : Value}
  {start frame shown moment : Frame ω}
  {decision : Decision}
  {event : Event}
  {name : String}

section Telling

variable {listeners : List Listener}

/-- Telling listeners ends where one of them halts. -/
theorem Tells.halts
    {halt : Halt}
    {after : Frame ω}
    (tells : Tells deliver event listeners frame name moment)
    (halts : deliver name event moment = .error halt after) :
    Listener.tellAll deliver event listeners frame = .error halt after := by
  induction tells with
  | now => exact bind_of_error halts
  | later told _ inductionHypothesis =>
      exact (bind_of_ok told).trans (inductionHypothesis halts)

/-- What callbacks do to frames is done from the end of one of them to the end of all. -/
theorem Tells.onward
    (relation : Frame ω → Frame ω → Prop)
    (refl : ∀ frame, relation frame frame)
    (trans :
      ∀ {earlier middle later},
        relation earlier middle → relation middle later →
          relation earlier later)
    (each :
      ∀ name moment,
        Tells deliver event listeners frame name moment →
          relation moment (frameAfter (deliver name event) moment))
    (tells : Tells deliver event listeners frame name moment) :
    relation (frameAfter (deliver name event) moment)
      (frameAfter (Listener.tellAll deliver event listeners) frame) := by
  induction tells with
  | @now name rest frame =>
      have unfolded :
          Listener.tellAll deliver event (.observer name :: rest) frame =
            (deliver name event >>= fun _ =>
              Listener.tellAll deliver event rest) frame :=
        rfl
      cases heard : deliver name event frame with
      | error halt after =>
          rw [bind_of_error heard] at unfolded
          rw [frameAfter_of_error heard, frameAfter_of_error unfolded]
          exact refl after
      | ok result after =>
          rw [bind_of_ok heard] at unfolded
          rw [frameAfter_of_ok heard]
          simp only [frameAfter, unfolded]
          exact
            tellAll_relates relation refl trans fun name moment tells =>
              each name moment (.later heard tells)
  | @later listener rest frame next moment name told tells inductionHypothesis =>
      have unfolded :
          Listener.tellAll deliver event (listener :: rest) frame =
            Listener.tellAll deliver event rest next :=
        bind_of_ok told
      simp only [frameAfter, unfolded]
      exact
        inductionHypothesis fun name moment tells =>
          each name moment (.later told tells)

/-- Listeners are told the same by two deliveries that agree where one of them comes to. -/
theorem tellAll_congr
    {other : Deliver ω}
    (agree :
      ∀ name moment,
        Tells deliver event listeners frame name moment →
          deliver name event moment = other name event moment) :
    Listener.tellAll deliver event listeners frame =
      Listener.tellAll other event listeners frame := by
  induction listeners generalizing frame with
  | nil => rfl
  | cons listener rest inductionHypothesis =>
      have heard :
          listener.tell deliver event frame =
            listener.tell other event frame := by
        cases listener with
        | observer name => exact agree name frame .now
        | stranger value => rfl
      change
        (listener.tell deliver event >>= fun _ =>
          Listener.tellAll deliver event rest) frame =
        (listener.tell other event >>= fun _ =>
          Listener.tellAll other event rest) frame
      rw [← bind_of_eq heard]
      cases told : listener.tell deliver event frame with
      | error halt after => rw [bind_of_error told, bind_of_error told]
      | ok result after =>
          rw [bind_of_ok told, bind_of_ok told]
          exact
            inductionHypothesis fun name moment tells =>
              agree name moment (.later told tells)

theorem Tells.congr
    {other : Deliver ω}
    (tells : Tells other event listeners frame name moment)
    (agree :
      ∀ name moment,
        Tells deliver event listeners frame name moment →
          deliver name event moment = other name event moment) :
    Tells deliver event listeners frame name moment := by
  induction tells with
  | now => exact .now
  | @later listener rest frame next moment name told _ inductionHypothesis =>
      have same : listener.tell deliver event frame = .ok () next := by
        cases listener with
        | observer first => exact (agree first frame .now).trans told
        | stranger value => cases told
      exact
        .later same
          (inductionHypothesis fun name moment tells =>
            agree name moment (.later same tells))

end Telling

/-- A run goes on from every frame that it reaches, if it gets so far. -/
theorem Reaches.drive_from
    (reaches : Reaches deliver table start frame)
    (granted : Nat) :
    (∃ last, drive deliver table granted start = .error .outOfSteps last) ∨
      ∃ left,
        drive deliver table granted start =
          drive deliver table (left + 1) frame := by
  induction reaches with
  | start =>
      cases granted with
      | zero => exact .inl ⟨start, rfl⟩
      | succ left => exact .inr ⟨left, rfl⟩
  | @turn token rest before after _ lookahead turned inductionHypothesis =>
      rcases inductionHypothesis with endless | ⟨left, same⟩
      · exact .inl endless
      · rw [drive_of_lookahead lookahead, turned] at same
        cases left with
        | zero => exact .inl ⟨after, same⟩
        | succ left => exact .inr ⟨left, same⟩

/-- A callback that halts ends its run, if the run gets so far. -/
theorem Callback.halts
    {halt : Halt}
    {after : Frame ω}
    (callback : Callback deliver table start name event moment)
    (halts : deliver name event moment = .error halt after)
    (granted : Nat) :
    (∃ last, drive deliver table granted start = .error .outOfSteps last) ∨
      drive deliver table granted start = .error halt after := by
  cases callback with
  | @intro before shown _ decision _ reaches decides tells =>
      rcases reaches.drive_from granted with endless | ⟨left, same⟩
      · exact .inl endless
      · have notified :
            notify deliver decision.event shown = .error halt after :=
          tells.halts halts
        rw [(drive_of_decided deliver left decides).2,
          perform_of_interrupted notified] at same
        exact .inr same

section Relations

variable
  (relation : Frame ω → Frame ω → Prop)
  (refl : ∀ frame, relation frame frame)
  (trans :
    ∀ {earlier middle later},
      relation earlier middle → relation middle later →
        relation earlier later)
  (prints : ∀ {before after}, before.PrintsTo after → relation before after)
  (commits :
    ∀ {told decision parser},
      Parser.commit decision told.parser = .ok () parser →
        relation told { told with parser := parser })
  (breaks :
    ∀ {told decision cause parser},
      Parser.commit decision told.parser = .error cause parser →
        relation told { told with parser := parser })
  (each :
    ∀ name event moment,
      Callback deliver table start name event moment →
        relation moment (frameAfter (deliver name event) moment))

include refl trans prints commits breaks each

/-- A relation that every part of a run respects leads to the end of the run. -/
theorem drive_relates
    (reaches : Reaches deliver table start frame)
    (granted : Nat) :
    relation frame (frameAfter (drive deliver table granted) frame) := by
  refine
    drive_exits (relation frame) (relation frame) ?_ ?_ ?_ ?_ granted reaches
      (refl frame)
  · intro before after related printed
    exact trans related (prints printed)
  · intro before decision after reaches related performs
    exact
      trans related
        (performs.relates relation refl trans prints commits each reaches)
  · intro before decision shown halt after reaches related decides interrupted
    have told := notify_relates relation refl trans each reaches decides
    rw [frameAfter_of_error interrupted] at told
    exact trans related (trans (prints decides.printsTo) told)
  · intro before decision shown told cause parser reaches related decides
      notified broken
    have heard := notify_relates relation refl trans each reaches decides
    rw [frameAfter_of_ok notified] at heard
    exact
      trans related
        (trans (prints decides.printsTo) (trans heard (breaks broken)))

omit breaks in
/-- Such a relation leads from the start of a run to every callback. -/
theorem Callback.relates
    (callback : Callback deliver table start name event moment) :
    relation start moment := by
  cases callback with
  | intro reaches decides tells =>
      exact
        trans (reaches.relates relation refl trans prints commits each)
          (trans (prints decides.printsTo)
            (tells_relates relation refl trans each reaches decides tells))

/-- Such a relation leads from where all have been told of an action to the end. -/
theorem told_relates
    {before told : Frame ω}
    (reaches : Reaches deliver table start before)
    (decides : Decides table before decision shown)
    (notified : notify deliver decision.event shown = .ok () told)
    (left : Nat) :
    relation told (frameAfter (drive deliver table (left + 1)) before) := by
  have unfolded := (drive_of_decided deliver left decides).2
  cases committed : Parser.commit decision told.parser with
  | error cause parser =>
      rw [perform_of_broken notified committed] at unfolded
      rw [frameAfter_of_error unfolded]
      exact breaks committed
  | ok result parser =>
      obtain ⟨after, printed, performed | ⟨halt, unshown⟩⟩ :=
        perform_of_committed notified committed
      · have related : relation told after :=
          trans (commits committed) (prints printed)
        obtain ⟨token, rest, lookahead⟩ := decides.lookahead
        rw [performed] at unfolded
        cases progress : decision.progress with
        | finished =>
            rw [progress] at unfolded
            rw [frameAfter_of_ok unfolded]
            exact related
        | running =>
            rw [progress] at performed unfolded
            rw [← decides.turn_eq lookahead] at performed
            simp only [frameAfter, unfolded]
            exact
              trans related
                (drive_relates relation refl trans prints commits breaks each
                  (.turn reaches lookahead performed) left)
      · rw [unshown] at unfolded
        rw [frameAfter_of_error unfolded]
        exact trans (commits committed) (prints printed)

/-- Such a relation leads from the end of a callback to the end of its run. -/
theorem Callback.onward
    (callback : Callback deliver table start name event moment)
    (granted : Nat) :
    (∃ last, drive deliver table granted start = .error .outOfSteps last) ∨
      relation (frameAfter (deliver name event) moment)
        (frameAfter (drive deliver table granted) start) := by
  cases callback with
  | @intro before shown _ decision _ reaches decides tells =>
      rcases reaches.drive_from granted with endless | ⟨left, same⟩
      · exact .inl endless
      · right
        have heard :=
          tells.onward relation refl trans fun name moment tells =>
            each name decision.event moment (.intro reaches decides tells)
        change
          relation _ (frameAfter (notify deliver decision.event) shown) at heard
        simp only [frameAfter, same]
        cases notified : notify deliver decision.event shown with
        | error halt after =>
            rw [frameAfter_of_error notified] at heard
            rw [(drive_of_decided deliver left decides).2,
              perform_of_interrupted notified]
            exact heard
        | ok result told =>
            rw [frameAfter_of_ok notified] at heard
            exact
              trans heard
                (told_relates relation refl trans prints commits breaks each
                  reaches decides notified left)

end Relations

section Agreement

variable
  {other : Deliver ω}
  (agree :
    ∀ name event moment,
      Callback deliver table start name event moment →
        deliver name event moment = other name event moment)

include agree

/-- Turns do not differ by deliveries that agree on callbacks. -/
theorem turn_congr
    {token : Value}
    {rest : List Value}
    (reaches : Reaches deliver table start frame)
    (lookahead : frame.parser.pending = token :: rest) :
    turn deliver table token frame = turn other table token frame := by
  rw [turn_eq_consult, turn_eq_consult]
  cases consulted : consult table token frame with
  | error halt after => rw [bind_of_error consulted, bind_of_error consulted]
  | ok decision shown =>
      rw [bind_of_ok consulted, bind_of_ok consulted]
      have decides := (consult_ok_iff lookahead).mp consulted
      unfold perform
      apply bind_of_eq
      exact
        tellAll_congr fun name moment tells =>
          agree name decision.event moment (.intro reaches decides tells)

/-- Runs do not differ by deliveries that agree on the callbacks of one of them. -/
theorem drive_congr
    (reaches : Reaches deliver table start frame)
    (granted : Nat) :
    drive deliver table granted frame = drive other table granted frame := by
  induction granted generalizing frame with
  | zero => rfl
  | succ granted inductionHypothesis =>
      cases queue : frame.parser.pending with
      | nil => rw [drive_of_nothing queue, drive_of_nothing queue]
      | cons token rest =>
          rw [drive_of_lookahead queue, drive_of_lookahead queue,
            ← turn_congr agree reaches queue]
          cases turned : turn deliver table token frame with
          | error halt after => rfl
          | ok progress after =>
              cases progress with
              | finished => rfl
              | running =>
                  exact inductionHypothesis (.turn reaches queue turned)

theorem Reaches.congr
    (reaches : Reaches other table start frame) :
    Reaches deliver table start frame := by
  induction reaches with
  | start => exact .start
  | turn _ lookahead turned inductionHypothesis =>
      rw [← turn_congr agree inductionHypothesis lookahead] at turned
      exact .turn inductionHypothesis lookahead turned

/-- Such deliveries are called back in the same frames. -/
theorem Callback.congr
    (callback : Callback other table start name event moment) :
    Callback deliver table start name event moment := by
  cases callback with
  | @intro before shown _ decision _ reaches decides tells =>
      have reached : Reaches deliver table start before := reaches.congr agree
      have heard :
          ∀ name moment,
            Tells deliver decision.event shown.parser.registry.listeners shown
                name moment →
              deliver name decision.event moment =
                other name decision.event moment := by
        intro name moment tells
        exact agree name decision.event moment (.intro reached decides tells)
      exact .intro reached decides (tells.congr heard)

end Agreement

end ShiftReduce.Run
