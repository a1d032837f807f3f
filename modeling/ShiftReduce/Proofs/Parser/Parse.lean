import ShiftReduce.Proofs.Parser.Situation

namespace ShiftReduce.Parser

/-!
# The parse that a parser is at

Carrying out an action is a matter of the parse alone, that is of the stacks, the queue
and the verdict.  It neither takes notice of the rest of the parser nor changes it
(`commit_withParse`).
-/

/-- A parser that is at the same parse as another one. -/
def withParse
    (parser other : Parser) :
    Parser :=
  { parser with
    states := other.states
    symbols := other.symbols
    pending := other.pending
    accepted := other.accepted }

@[simp]
theorem withParse_self
    (parser : Parser) :
    parser.withParse parser = parser :=
  rfl

/-- What becomes of a parser in an operation, put to the rest of another parser. -/
def resultWithParse
    {α : Type}
    (parser : Parser) :
    EStateM.Result Fault Parser α → EStateM.Result Fault Parser α
  | .ok result after => .ok result (parser.withParse after)
  | .error cause after => .error cause (parser.withParse after)

theorem popFrames_withParse
    (depth : Nat)
    (parser other : Parser) :
    popFrames depth (parser.withParse other) =
      parser.resultWithParse (popFrames depth other) := by
  induction depth generalizing other with
  | zero => rfl
  | succ depth inductionHypothesis =>
      rcases other with
        ⟨registry, table, states, symbols, pending, accepted, ran, verbose⟩
      cases states with
      | nil => rfl
      | cons state states =>
          cases symbols with
          | nil => rfl
          | cons symbol symbols =>
              exact
                inductionHypothesis
                  ⟨registry, table, states, symbols, pending, accepted, ran,
                    verbose⟩

/-- Carrying out an action is a matter of the parse alone. -/
theorem commit_withParse
    (chosen : Decision)
    (parser other : Parser) :
    commit chosen (parser.withParse other) =
      parser.resultWithParse (commit chosen other) := by
  cases chosen with
  | accept state => rfl
  | shift state token next =>
      rcases other with
        ⟨registry, table, states, symbols, pending, accepted, ran, verbose⟩
      cases token with
      | token carried =>
          cases pending with
          | nil => rfl
          | cons first rest => rfl
      | _ => rfl
  | reduce state production next =>
      have popped := popFrames_withParse production.length parser other
      simp only [commit, bind, EStateM.bind, popped]
      cases popFrames production.length other with
      | error cause left => rfl
      | ok result left =>
          simp only [resultWithParse]
          cases Symbol.wrapNonterminal production.head with
          | error cause => rfl
          | ok symbol => rfl

section Committed

variable
  {chosen : Decision}
  {parser after : Parser}

/-- Carrying out an action leaves the rest of the parser alone. -/
theorem commit_rest
    (committed : commit chosen parser = .ok () after) :
    after = parser.withParse after := by
  have framed := commit_withParse chosen parser parser
  rw [withParse_self, committed] at framed
  exact (EStateM.Result.ok.inj framed).2

/-- An action that breaks off leaves the rest of the parser alone, too. -/
theorem broken_rest
    {cause : Fault}
    (broken : commit chosen parser = .error cause after) :
    after = parser.withParse after := by
  have framed := commit_withParse chosen parser parser
  rw [withParse_self, broken] at framed
  exact (EStateM.Result.error.inj framed).2

end Committed

end ShiftReduce.Parser
