import ShiftReduce.Proofs.Run.Turn

namespace ShiftReduce

/-!
# Conduct

What observers do when they hear of an event, and what is done in a session as a whole,
is a matter of looking at a state, changing it, and asking for things.  `Conduct` says
this as a tree, which leaves open how requests are carried out: `Conduct.enact` is told.
Whatever a request comes to is an answer to go on with, so that conduct does not fail of
itself (`Conduct.enact_faultless`).
-/

/--
What someone does step by step: look at the state and change it, or ask for something
and go on as it was answered, which is with a fault or without.
-/
inductive Conduct (σ ρ : Type) where
  | done
  | act (change : σ → σ) (next : σ → Conduct σ ρ)
  | ask (request : ρ) (next : Option Fault → Conduct σ ρ)

variable {σ ρ : Type}

/-- The state in which an activity ends, whether it halts or not. -/
def Activity.stateAfter
    {α : Type}
    (activity : Activity σ α)
    (state : σ) :
    σ :=
  match activity state with
  | .ok _ after => after
  | .error _ after => after

theorem Run.frameAfter_eq_stateAfter
    {ω α : Type}
    (run : Run ω α)
    (frame : Frame ω) :
    frameAfter run frame = Activity.stateAfter run frame := by
  unfold frameAfter Activity.stateAfter
  cases run frame with
  | ok result after => rfl
  | error halt after => rfl

/-- Do something, and keep a fault as the answer. -/
def Activity.attempt
    (activity : Activity σ Unit) :
    Activity σ (Option Fault) :=
  fun state =>
    match activity state with
    | .ok _ after => .ok none after
    | .error (.fault cause) after => .ok (some cause) after
    | .error .outOfSteps after => .error .outOfSteps after

namespace Conduct

/-- Do what a conduct says, given a way to carry out requests. -/
def enact
    (fulfil : ρ → Activity σ Unit) :
    Conduct σ ρ → Activity σ Unit
  | .done => pure ()
  | .act change next =>
      fun state => (next (change state)).enact fulfil (change state)
  | .ask request next => do
      let answer ← (fulfil request).attempt
      (next answer).enact fulfil

/-- Every change that a conduct makes by itself respects a relation. -/
def Respects
    (relation : σ → σ → Prop) :
    Conduct σ ρ → Prop
  | .done => True
  | .act change next =>
      ∀ state,
        relation state (change state) ∧ (next (change state)).Respects relation
  | .ask _ next => ∀ answer, (next answer).Respects relation

theorem Respects.mono
    {relation weaker : σ → σ → Prop}
    {conduct : Conduct σ ρ}
    (respects : conduct.Respects relation)
    (implies : ∀ before after, relation before after → weaker before after) :
    conduct.Respects weaker := by
  induction conduct with
  | done => trivial
  | act change next inductionHypothesis =>
      intro state
      exact
        ⟨implies _ _ (respects state).1,
          inductionHypothesis _ (respects state).2⟩
  | ask request next inductionHypothesis =>
      intro answer
      exact inductionHypothesis answer (respects answer)

section Asking

variable
  {fulfil : ρ → Activity σ Unit}
  {request : ρ}
  {next : Option Fault → Conduct σ ρ}
  {state after : σ}

/-- Once a request has been answered, the conduct goes on with the answer. -/
theorem enact_of_answer
    {answer : Option Fault}
    (answers : (fulfil request).attempt state = .ok answer after) :
    (ask request next).enact fulfil state = (next answer).enact fulfil after :=
  Run.bind_of_ok answers

/-- Where a request is still going on, so is the conduct. -/
theorem enact_of_halt
    {halt : Halt}
    (halts : (fulfil request).attempt state = .error halt after) :
    (ask request next).enact fulfil state = .error halt after :=
  Run.bind_of_error halts

end Asking

end Conduct

namespace Activity

variable
  {activity : Activity σ Unit}
  {state : σ}

/-- An attempt is answered, or it is still going on. -/
theorem attempt_cases
    (activity : Activity σ Unit)
    (state : σ) :
    (∃ answer,
      activity.attempt state = .ok answer (activity.stateAfter state) ∧
        ∀ after, activity state ≠ .error .outOfSteps after) ∨
    (activity.attempt state =
        .error .outOfSteps (activity.stateAfter state) ∧
      activity state = .error .outOfSteps (activity.stateAfter state)) := by
  unfold attempt stateAfter
  cases activity state with
  | ok result after => exact .inl ⟨none, rfl, by simp⟩
  | error halt after =>
      cases halt with
      | fault cause => exact .inl ⟨some cause, rfl, by simp⟩
      | outOfSteps => exact .inr ⟨rfl, rfl⟩

end Activity

namespace Conduct

/-- Conduct comes to its end, unless some request is still going on. -/
theorem enact_faultless
    {fulfil : ρ → Activity σ Unit}
    (conduct : Conduct σ ρ)
    {state after : σ}
    {halt : Halt}
    (halts : conduct.enact fulfil state = .error halt after) :
    halt = .outOfSteps := by
  induction conduct generalizing state with
  | done => cases halts
  | act change next inductionHypothesis =>
      exact inductionHypothesis (change state) halts
  | ask request next inductionHypothesis =>
      rcases (fulfil request).attempt_cases state with
          ⟨answer, answers, _⟩ | ⟨endless, _⟩
      · rw [enact_of_answer answers] at halts
        exact inductionHypothesis answer halts
      · rw [enact_of_halt endless] at halts
        cases halts
        rfl

/-- What changes and requests respect, the conduct as a whole respects. -/
theorem enact_relates
    {fulfil : ρ → Activity σ Unit}
    (relation : σ → σ → Prop)
    (refl : ∀ state, relation state state)
    (trans :
      ∀ {earlier middle later},
        relation earlier middle → relation middle later →
          relation earlier later)
    (each :
      ∀ request state, relation state ((fulfil request).stateAfter state))
    {conduct : Conduct σ ρ}
    (respects : conduct.Respects relation)
    (state : σ) :
    relation state ((conduct.enact fulfil).stateAfter state) := by
  induction conduct generalizing state with
  | done => exact refl state
  | act change next inductionHypothesis =>
      exact
        trans (respects state).1
          (inductionHypothesis (change state) (respects state).2 (change state))
  | ask request next inductionHypothesis =>
      rcases (fulfil request).attempt_cases state with
          ⟨answer, answers, _⟩ | ⟨endless, _⟩
      · simp only [Activity.stateAfter, enact_of_answer answers]
        exact
          trans (each request state)
            (inductionHypothesis answer (respects answer) _)
      · simp only [Activity.stateAfter, enact_of_halt endless]
        exact each request state

/-- Two ways to carry out requests make no difference where they agree throughout. -/
theorem enact_congr
    {first second : ρ → Activity σ Unit}
    (inside : σ → Prop)
    (same :
      ∀ request state,
        inside state →
          first request state = second request state ∧
            inside ((second request).stateAfter state))
    {conduct : Conduct σ ρ}
    (respects :
      conduct.Respects fun before after => inside before → inside after)
    {state : σ}
    (holds : inside state) :
    conduct.enact first state = conduct.enact second state := by
  induction conduct generalizing state with
  | done => rfl
  | act change next inductionHypothesis =>
      exact
        inductionHypothesis (change state) (respects state).2
          ((respects state).1 holds)
  | ask request next inductionHypothesis =>
      obtain ⟨agree, kept⟩ := same request state holds
      have attempts :
          (first request).attempt state = (second request).attempt state := by
        unfold Activity.attempt
        rw [agree]
      rcases (second request).attempt_cases state with
          ⟨answer, answers, _⟩ | ⟨endless, _⟩
      · rw [enact_of_answer answers, enact_of_answer (attempts.trans answers)]
        exact inductionHypothesis answer (respects answer) kept
      · rw [enact_of_halt endless, enact_of_halt (attempts.trans endless)]

end Conduct

end ShiftReduce
