import ShiftReduce.Parser.Step
import ShiftReduce.Proofs.Table.Failure

namespace ShiftReduce

/-!
# Refused tokens

A parser has many ways to fail, but it refuses a token in one place only: where its table has
an error action of the class itself for the token (`Parser.decision_refuses`).  Neither
consulting the table nor carrying out an action ever does.
-/

/-- What shows as a refused token is one. -/
theorem Store.settle_refusal_inversion
    {store : Store}
    {cause : Fault}
    {state token : Value}
    {expected : List Value}
    (settled : store.settle cause = .unexpectedToken state token expected) :
    ∃ heldState heldToken heldExpected,
      cause = .unexpectedToken heldState heldToken heldExpected ∧
        state = store.resolve heldState ∧
        token = store.resolve heldToken ∧
        expected = heldExpected.map store.resolve := by
  simp only [settle] at settled
  split at settled
  · cases cause with
    | unexpectedToken heldState heldToken heldExpected =>
        cases settled
        exact ⟨heldState, heldToken, heldExpected, rfl, rfl, rfl, rfl⟩
    | _ => cases settled
  · cases settled

namespace Parser

variable
  {store : Store}
  {parser after : Parser}
  {cause : Fault}

/-- Consulting a table never refuses a token. -/
theorem select_neverRefuses
    (store : Store)
    (parser : Parser)
    (table token : Value) :
    NeverRefuses (parser.select store table token) := by
  refine .bind ?_ fun state => ?_
  · unfold topState
    split
    · exact .error (by rintro ⟨⟩)
    · exact .ok _
  · split
    · split
      · exact .bind (Table.action_fails store _ _ _).neverRefuses fun _ => .ok _
      · exact .error (by rintro ⟨⟩)
    · exact .error (by rintro ⟨⟩)

/-- Looking for the state after a reduction never refuses a token. -/
theorem nextAfter_neverRefuses
    (store : Store)
    (parser : Parser)
    (selection : Selection)
    (production : Production) :
    NeverRefuses (parser.nextAfter store selection production) := by
  unfold nextAfter
  split
  · exact .error nofun
  · refine .bind ?_ fun exposed => .bind ?_ fun next => ?_
    · unfold exposedState
      split
      · exact .ok _
      · exact .error nofun
    · exact (Table.goto_fails store _ _ _).neverRefuses
    · split
      · exact .error nofun
      · exact .ok _

theorem refuseReduction_neverRefuses
    (store : Store)
    (parser : Parser)
    (value : Value) :
    NeverRefuses (parser.refuseReduction store value) := by
  unfold refuseReduction
  split
  · exact .error nofun
  · split
    · refine .bind ?_ fun _ => .error nofun
      cases store.plain value with
      | ok text => exact .ok _
      | error misfit => exact .error nofun
    · split
      · exact .error nofun
      · exact .error nofun

/-- A token is refused where the table has an error action for it, and nowhere else. -/
theorem decision_refuses
    {selection : Selection}
    (refused : parser.decision store selection = .error cause)
    (refusal : cause.category = .parse) :
    selection.action = .action (.error .direct) ∧
      refuseToken store selection = .error cause := by
  unfold decision at refused
  split at refused
  · cases refused
  · next production _ =>
      have never :
          NeverRefuses
            (do
              let target ← parser.nextAfter store selection production
              return Decision.reduce selection.state production target) :=
        .bind (nextAfter_neverRefuses store parser selection production)
          fun _ => .ok _
      exact absurd refusal (never cause refused)
  · exact absurd refusal (refuseReduction_neverRefuses store parser _ cause refused)
  · cases refused
  · next isError => exact ⟨isError, refused⟩
  · cases refused
    cases refusal

/-- What a refused token is reported with is what the table's diagnosis comes to. -/
theorem refuseToken_inversion
    {selection : Selection}
    {state token : Value}
    {expected : List Value}
    (refused :
      refuseToken store selection =
        .error (.unexpectedToken state token expected))
    (diagnosed :
      ∃ kinds, selection.table.diagnose store selection.state = .ok kinds) :
    state = selection.state ∧
      token = selection.token ∧
      selection.table.diagnose store selection.state = .ok expected := by
  obtain ⟨kinds, diagnosed⟩ := diagnosed
  unfold refuseToken at refused
  cases worded :
      Fault.refusal (store.resolve selection.token)
        (store.resolve selection.state) with
  | error misfit =>
      rw [worded] at refused
      cases refused
  | ok text =>
      rw [worded, diagnosed] at refused
      cases refused
      exact ⟨rfl, rfl, diagnosed⟩

/-- Popping states and symbols never refuses a token. -/
theorem popFrames_neverRefuses
    {depth : Nat}
    (failed : popFrames depth parser = .error cause after) :
    cause.category ≠ .parse := by
  induction depth generalizing parser with
  | zero => cases failed
  | succ depth inductionHypothesis =>
      rcases parser with
        ⟨registry, table, states, symbols, pending, accepted, ran, verbose⟩
      cases states with
      | nil =>
          cases failed
          nofun
      | cons state states =>
          cases symbols with
          | nil =>
              cases failed
              nofun
          | cons symbol symbols => exact inductionHypothesis failed

/-- Carrying out an action never refuses a token. -/
theorem commit_neverRefuses
    {decision : Decision}
    (broken : commit decision parser = .error cause after) :
    cause.category ≠ .parse := by
  rcases parser with
    ⟨registry, table, states, symbols, pending, accepted, ran, verbose⟩
  cases decision with
  | accept state => cases broken
  | shift state token next =>
      cases token with
      | token carried =>
          cases pending with
          | nil =>
              cases broken
              nofun
          | cons first rest => cases broken
      | _ =>
          cases broken
          nofun
  | reduce state production next =>
      simp only [commit, bind, EStateM.bind] at broken
      split at broken
      · cases head : production.head with
        | nonterminal carried =>
            rw [head] at broken
            cases broken
        | _ =>
            rw [head] at broken
            cases broken
            nofun
      · next failed =>
          cases broken
          exact popFrames_neverRefuses failed

end Parser

end ShiftReduce
