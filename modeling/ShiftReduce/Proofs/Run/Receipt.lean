import ShiftReduce.Proofs.Run.Record

namespace ShiftReduce

/-!
# Who has been told of which action

A run advances from one action to the next (`Run.Advances`), and there is only one way
for it to do so (`Run.Advances.unique`).  Of each action, the listeners are told in their
order: `Run.Receives` says that the one at a position has been told of the action of a
number.

Observers that do not load the parser anew (`Run.KeepsLoaded`) leave everyone at the
position that they had when the run began, and everyone there has been told of all
actions that were carried out (`Run.Advances.receives`).
-/

/-- Whoever has a position keeps it when others come after. -/
theorem Listener.placed_of_prefix
    {before after : List Listener}
    {position : Nat}
    {listener : Listener}
    (kept : before <+: after)
    (placed : before[position]? = some listener) :
    after[position]? = some listener := by
  obtain ⟨more, rfl⟩ := kept
  obtain ⟨within, _⟩ := List.getElem?_eq_some_iff.mp placed
  rw [List.getElem?_append_left within]
  exact placed

namespace Frame

variable {ω : Type}

/-- One frame becomes another with no listener lost, and with its mark of having run. -/
structure Retains
    (before after : Frame ω) :
    Prop where
  ran : after.parser.ran = before.parser.ran
  listeners :
    before.parser.registry.listeners <+: after.parser.registry.listeners

theorem Retains.refl
    (frame : Frame ω) :
    frame.Retains frame :=
  ⟨rfl, List.prefix_rfl⟩

theorem Retains.trans
    {first second third : Frame ω}
    (before : first.Retains second)
    (after : second.Retains third) :
    first.Retains third :=
  ⟨after.ran.trans before.ran, before.listeners.trans after.listeners⟩

theorem PrintsTo.retains
    {before after : Frame ω}
    (prints : before.PrintsTo after) :
    before.Retains after := by
  refine ⟨congrArg Parser.ran prints.parser, [], ?_⟩
  rw [List.append_nil, prints.parser]

end Frame

namespace Run

variable
  {ω : Type}
  {deliver : Deliver ω}
  {table : Value}
  {start : Frame ω}

/--
No callback of a run loads the parser anew, whether it fails or not.  Observers may still
register others, or do anything in their own world.
-/
structure KeepsLoaded
    (deliver : Deliver ω)
    (table : Value)
    (start : Frame ω) :
    Prop where
  undisturbed : Undisturbed deliver table start
  retains :
    ∀ name event moment,
      Callback deliver table start name event moment →
        moment.Retains (frameAfter (deliver name event) moment)

namespace KeepsLoaded

variable
  {before shown : Frame ω}
  {decision : Decision}

theorem notify_retains
    (keeps : KeepsLoaded deliver table start)
    (reaches : Reaches deliver table start before)
    (decides : Decides table before decision shown) :
    before.Retains (frameAfter (notify deliver decision.event) shown) :=
  decides.printsTo.retains.trans
    (notify_relates Frame.Retains .refl .trans keeps.retains reaches decides)

/-- All listeners that a run began with are still there between any two actions. -/
theorem reaches_retains
    (keeps : KeepsLoaded deliver table start)
    {frame : Frame ω}
    (reaches : Reaches deliver table start frame) :
    start.Retains frame := by
  refine reaches.relates Frame.Retains .refl .trans Frame.PrintsTo.retains ?_
    keeps.retains
  intro told decision parser committed
  have same := Parser.commit_keeps committed
  refine ⟨same.ran, [], ?_⟩
  rw [List.append_nil, same.registry]

end KeepsLoaded

/-- A run from a start has carried out actions, one after the other. -/
inductive Advances
    (deliver : Deliver ω)
    (table : Value)
    (start : Frame ω) :
    List Decision → Frame ω → Prop where
  | none :
      Advances deliver table start [] start
  | more
      {decisions : List Decision}
      {decision : Decision}
      {token : Value}
      {rest : List Value}
      {before shown after : Frame ω}
      (advances : Advances deliver table start decisions before)
      (lookahead : before.parser.pending = token :: rest)
      (decides : Decides table before decision shown)
      (turned : turn deliver table token before = .ok .running after) :
      Advances deliver table start (decisions ++ [decision]) after

/-- A run has told the listener at a position of the action of a number. -/
def Receives
    (deliver : Deliver ω)
    (table : Value)
    (start : Frame ω)
    (position : Nat)
    (listener : Listener)
    (number : Nat)
    (event : Event) :
    Prop :=
  ∃ decisions before decision shown moment,
    Advances deliver table start decisions before ∧
      decisions.length = number ∧
      Decides table before decision shown ∧
      decision.event = event ∧
      TellsAt deliver event shown.parser.registry.listeners shown position
        listener moment

/-- A turn that comes to its end has told everyone. -/
theorem notified_of_turned
    {token : Value}
    {rest : List Value}
    {before shown after : Frame ω}
    {decision : Decision}
    {progress : Progress}
    (lookahead : before.parser.pending = token :: rest)
    (decides : Decides table before decision shown)
    (turned : turn deliver table token before = .ok progress after) :
    ∃ told, notify deliver decision.event shown = .ok () told := by
  rw [decides.turn_eq lookahead deliver] at turned
  unfold perform at turned
  cases notified : notify deliver decision.event shown with
  | ok result told => exact ⟨told, rfl⟩
  | error halt raised =>
      rw [bind_of_error notified] at turned
      cases turned

/-- Of actions with one more after them, each is either one of those before or the last. -/
theorem earlier_or_last
    {decisions : List Decision}
    {last decision : Decision}
    {number : Nat}
    (listed : (decisions ++ [last])[number]? = some decision) :
    (number < decisions.length ∧ decisions[number]? = some decision) ∨
      (number = decisions.length ∧ decision = last) := by
  by_cases earlier : number < decisions.length
  · rw [List.getElem?_append_left earlier] at listed
    exact .inl ⟨earlier, listed⟩
  · have isLast := Nat.le_of_not_lt earlier
    rw [List.getElem?_append_right isLast] at listed
    obtain ⟨within, same⟩ := List.getElem?_eq_some_iff.mp listed
    rw [List.getElem_singleton] at same
    rw [List.length_singleton] at within
    exact .inr ⟨by omega, same.symm⟩

namespace Advances

variable
  {decisions : List Decision}
  {frame : Frame ω}

theorem reaches
    (advances : Advances deliver table start decisions frame) :
    Reaches deliver table start frame := by
  induction advances with
  | none => exact .start
  | more _ lookahead _ turned inductionHypothesis =>
      exact inductionHypothesis.turn lookahead turned

/-- After a number of actions, a run has carried out the same ones and is at the same place. -/
theorem unique
    {otherDecisions : List Decision}
    {otherFrame : Frame ω}
    (advances : Advances deliver table start decisions frame)
    (other : Advances deliver table start otherDecisions otherFrame)
    (sameNumber : decisions.length = otherDecisions.length) :
    decisions = otherDecisions ∧ frame = otherFrame := by
  induction advances generalizing otherDecisions otherFrame with
  | none =>
      cases other with
      | none => exact ⟨rfl, rfl⟩
      | more => simp at sameNumber
  | more _ lookahead decides turned inductionHypothesis =>
      cases other with
      | none => simp at sameNumber
      | more otherAdvances otherLookahead otherDecides otherTurned =>
          simp only [List.length_append, List.length_singleton,
            Nat.add_right_cancel_iff] at sameNumber
          obtain ⟨rfl, rfl⟩ := inductionHypothesis otherAdvances sameNumber
          obtain ⟨rfl, rfl⟩ := decides.unique otherDecides
          rw [lookahead] at otherLookahead
          cases otherLookahead
          rw [turned] at otherTurned
          cases otherTurned
          exact ⟨rfl, rfl⟩

/-- A run with enough turns granted goes on from where it has advanced to. -/
theorem drive_from
    (advances : Advances deliver table start decisions frame)
    (granted : Nat) :
    drive deliver table (decisions.length + granted) start =
      drive deliver table granted frame := by
  induction advances generalizing granted with
  | none => rw [List.length_nil, Nat.zero_add]
  | more _ lookahead _ turned inductionHypothesis =>
      rw [List.length_append, List.length_singleton, Nat.add_assoc,
        Nat.add_comm 1, inductionHypothesis, drive_of_lookahead lookahead,
        turned]

/-- Each action that was carried out was decided on where the ones before it had led. -/
theorem action
    {number : Nat}
    {decision : Decision}
    (advances : Advances deliver table start decisions frame)
    (listed : decisions[number]? = some decision) :
    ∃ before shown token rest after,
      Advances deliver table start (decisions.take number) before ∧
        Decides table before decision shown ∧
        before.parser.pending = token :: rest ∧
        turn deliver table token before = .ok .running after := by
  induction advances with
  | none => cases listed
  | @more decisions last _ _ _ _ _ advances lookahead decides turned
      inductionHypothesis =>
      rcases earlier_or_last listed with ⟨earlier, listed⟩ | ⟨rfl, rfl⟩
      · rw [List.take_append_of_le_length (Nat.le_of_lt earlier)]
        exact inductionHypothesis listed
      · rw [List.take_left]
        exact ⟨_, _, _, _, _, advances, decides, lookahead, turned⟩

/-- Everyone has been told of all actions that were carried out. -/
theorem receives
    {number position : Nat}
    {decision : Decision}
    {listener : Listener}
    (advances : Advances deliver table start decisions frame)
    (keeps : KeepsLoaded deliver table start)
    (listed : decisions[number]? = some decision)
    (placed : start.parser.registry.listeners[position]? = some listener) :
    Receives deliver table start position listener number decision.event := by
  obtain ⟨before, shown, _, _, _, earlier, decides, lookahead, turned⟩ :=
    advances.action listed
  have retains :=
    (keeps.reaches_retains earlier.reaches).trans decides.printsTo.retains
  obtain ⟨told, notified⟩ := notified_of_turned lookahead decides turned
  obtain ⟨moment, tellsAt⟩ :=
    tellsAt_of_ok notified
      (Listener.placed_of_prefix retains.listeners placed)
  have within : number < decisions.length :=
    (List.getElem?_eq_some_iff.mp listed).1
  refine ⟨_, before, decision, shown, moment, earlier, ?_, decides, rfl, tellsAt⟩
  rw [List.length_take]
  omega

end Advances

end Run

end ShiftReduce
