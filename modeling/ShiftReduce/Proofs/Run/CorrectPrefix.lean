import ShiftReduce.Proofs.Grammar.ExpressionPrefix
import ShiftReduce.Proofs.Machine.Refinement

namespace ShiftReduce.Run

/-!
# Errors at the first offending token

A parser of expressions has the correct-prefix property: what it has consumed when it
refuses a token begins a sentence, and with that token it no longer does
(`refuses_first_offending_token`).  Whether an input without an end is refused or
exhausted is a matter of whether it begins a sentence.
-/

open Grammar

variable
  {ω : Type}
  {deliver : Deliver ω}

/-- A run that refuses a token has the queue of the machine, which refuses it too. -/
theorem Concludes.refusal
    {ending : Machine.Ending}
    {state token : Value}
    {expected : List Value}
    {after : Frame ω}
    (concludes :
      Concludes ending
        (.error (.fault (.unexpectedToken state token expected)) after)) :
    ∃ refused,
      ending.verdict = some (.refused ending.configuration.top refused) ∧
        after.parser.pending = ending.configuration.pending.map .token ∧
        token = after.store.resolve (.token refused) := by
  cases concludes with
  | @refused refused _ _ _ _ situation verdict lookahead =>
      exact ⟨refused, rfl, congrArg Situation.pending situation, rfl⟩

/-- A run is out of input just if the machine is. -/
theorem Concludes.exhausted_iff
    {ending : Machine.Ending}
    {result : EStateM.Result Halt (Frame ω) Unit}
    (concludes : Concludes ending result) :
    (∃ state after,
      result =
        .error (.fault (.malformedTable (.inputExhausted state))) after) ↔
      ∃ state, ending.verdict = some (.stuck (.inputExhausted state)) := by
  cases concludes with
  | accepted situation verdict => simp
  | refused situation verdict lookahead => simp
  | unfinished situation verdict => simp
  | @stuck defect last events after situation verdict =>
      cases defect <;> simp [Store.resolveDefect]

/--
A parser of expressions reports an error at the first offending token.

Where a token is refused, what was consumed before it begins a sentence; and either the
token is an end of the input and what was consumed is no sentence by itself, or else no
sentence begins with what was consumed and the token.  Tokens without an end of the input
are exhausted just if they begin a sentence, and otherwise one of them is refused.
-/
theorem refuses_first_offending_token
    {tokens : List Token}
    {frame : Frame ω}
    (loaded : frame.parser.Loaded Expression.table (tokens.map .token))
    (unused : frame.parser.ran = false)
    (unaccepted : frame.parser.accepted = false)
    (plain : ∀ token ∈ tokens, frame.store.IsPlain token.value)
    (undisturbed : Undisturbed deliver (.table Expression.table) frame.begun)
    (ends : NotificationsEnd deliver (.table Expression.table) frame.begun)
    (stay : PayloadsStay deliver Expression.table frame.begun tokens) :
    (∀ granted state token expected after,
      start deliver granted frame =
          .error (.fault (.unexpectedToken state token expected)) after →
        ∃ consumed refused rest,
          tokens = consumed ++ refused :: rest ∧
            after.parser.pending = (refused :: rest).map .token ∧
            token = after.store.resolve (.token refused) ∧
            Expression.Begins (consumed.map Token.kind) ∧
            ((refused.kind = "$" ∧
                ¬ Expression.IsSentence (consumed.map Token.kind)) ∨
              (refused.kind ≠ "$" ∧
                ¬ Expression.Begins
                    ((consumed ++ [refused]).map Token.kind)))) ∧
    ((∀ token ∈ tokens, token.kind ≠ "$") →
      ∀ granted,
        4 * tokens.length < granted →
          ((∃ state after,
            start deliver granted frame =
              .error (.fault (.malformedTable (.inputExhausted state)))
                after) ↔
            Expression.Begins (tokens.map Token.kind)) ∧
          (¬ Expression.Begins (tokens.map Token.kind) →
            ∃ state token expected after,
              start deliver granted frame =
                .error (.fault (.unexpectedToken state token expected))
                  after)) := by
  have concludes :=
    start_concludes Expression.table_orderly loaded unused unaccepted
      (attended_of_tokens undisturbed ends stay) plain
  constructor
  · intro granted state token expected after ended
    have concluded := concludes granted
    rw [ended] at concluded
    obtain ⟨refused, decided, pending, isRefused⟩ := concluded.refusal
    obtain ⟨events, steps, refuses⟩ :=
      Machine.run_steps Expression.table granted
        (Machine.begin Expression.table tokens)
    rw [decided] at refuses
    obtain ⟨consumed, rest, split, queue, begins, offends⟩ :=
      Expression.refused_first steps refuses.2
    rw [queue] at pending
    exact ⟨consumed, refused, rest, split, pending, isRefused, begins, offends⟩
  · intro endless granted enough
    rw [(concludes granted).exhausted_iff, (concludes granted).refused_iff]
    rcases Expression.run_endless endless enough with exhausts | refuses
    · obtain ⟨begins, state, exhausted⟩ := exhausts
      refine ⟨⟨fun _ => begins, fun _ => ⟨state, exhausted⟩⟩, ?_⟩
      intro begun
      exact (begun begins).elim
    · obtain ⟨unbegun, state, token, refused⟩ := refuses
      refine ⟨⟨?_, fun begins => (unbegun begins).elim⟩, ?_⟩
      · rintro ⟨_, exhausted⟩
        rw [refused] at exhausted
        cases exhausted
      · intro _
        exact ⟨state, token, refused⟩

/-- A name and a plus sign, with a star in the place of an operand. -/
def misplacedStar : List Token :=
  [.plain "id" (.text "x"), .ofKind "plus", .ofKind "star", .endOfInput]

open Expression in
/-- A star in the place of an operand is the first offending token. -/
theorem refuses_misplaced_star :
    ∃ state token expected after,
      start (logging "log") 13
          (.fresh table (misplacedStar.map .token) ["log"] []) =
          .error (.fault (.unexpectedToken state token expected)) after ∧
        after.parser.pending =
          [Token.ofKind "star", .endOfInput].map .token ∧
        Begins ["id", "plus"] ∧
        ¬ Begins ["id", "plus", "star"] := by
  have loaded :=
    Frame.fresh_loaded table (misplacedStar.map .token) ["log"]
      ([] : List Event)
  have plain :
      ∀ token ∈ misplacedStar, Store.empty.IsPlain token.value := by
    simp only [misplacedStar, List.forall_mem_cons]
    exact ⟨rfl, rfl, rfl, rfl, by simp⟩
  have confined :=
    logging_confined "log" (.table table)
      (Frame.fresh table (misplacedStar.map .token) ["log"] []).begun
  have ends :=
    logging_notificationsEnd "log" (.table table)
      (Frame.fresh table (misplacedStar.map .token) ["log"] []).begun
      (by
        intro listener member
        exact ⟨"log", List.mem_singleton.mp member⟩)
  have stay := confined.payloadsStay misplacedStar
  have refuses :=
    (refuses_first_offending_token loaded rfl rfl plain confined.undisturbed
      ends stay).1 13
  have concludes :=
    start_concludes table_orderly loaded rfl rfl
      (attended_of_tokens confined.undisturbed ends stay) plain 13
  obtain ⟨state, token, expected, after, ended⟩ :=
    concludes.refused_iff.mpr ⟨.int 6, .ofKind "star", rfl⟩
  refine ⟨state, token, expected, after, ended, ?_⟩
  obtain ⟨consumed, refused, rest, split, queue, _, begins, offends⟩ :=
    refuses state token expected after ended
  rw [ended] at concludes
  obtain ⟨_, _, pending, _⟩ := concludes.refusal
  have isStar : [.ofKind "star", .endOfInput] = refused :: rest := by
    rw [pending] at queue
    exact (List.map_inj_right fun _ _ => Value.token.inj).mp queue
  cases isStar
  have consumedAre : [.plain "id" (.text "x"), .ofKind "plus"] = consumed :=
    List.append_cancel_right split
  subst consumedAre
  rcases offends with ⟨isEnd, _⟩ | ⟨_, unbegun⟩
  · exact absurd isEnd (by decide)
  · exact ⟨queue, begins, unbegun⟩

end ShiftReduce.Run
