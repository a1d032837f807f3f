import ShiftReduce.Proofs.Grammar.ExpressionCompleteness
import ShiftReduce.Proofs.Machine.Standing

namespace ShiftReduce.Grammar.Expression

/-!
# The language of expressions

On a text that is followed by the end of the input, the machine comes to a verdict
within four steps for each token of the text, and one more: it accepts if the text
has a derivation, and has then listed the rules of each derivation there is; or else
it refuses a token (`run_accepts`, `run_decides`).  What comes after the end of the
input it never takes notice of (`meets_text`).
-/

/-- A text without the end of the input in it is followed by the end of the input. -/
structure Delimited
    (text : List Token)
    (delimiter : Token) :
    Prop where
  endless : ∀ token ∈ text, token.kind ≠ "$"
  ends : delimiter.kind = "$"

section Machine

variable
  {text rest consumed remaining : List Token}
  {delimiter token : Token}
  {events : List Event}
  {configuration : Machine.Configuration}
  {state : Int}
  {log : List Production}

/-- What the end of the input is not among is a part of the text. -/
theorem Delimited.split
    (delimited : Delimited text delimiter)
    (endless : ∀ token ∈ consumed, token.kind ≠ "$")
    (split : consumed ++ remaining = text ++ delimiter :: rest) :
    ∃ unread,
      text = consumed ++ unread ∧ remaining = unread ++ delimiter :: rest := by
  rcases List.append_eq_append_iff.mp split with before | beyond
  · obtain ⟨unread, textIs, remainingIs⟩ := before
    exact ⟨unread, textIs, remainingIs⟩
  · obtain ⟨excess, consumedIs, restIs⟩ := beyond
    cases excess with
    | nil =>
        rw [List.append_nil] at consumedIs
        exact ⟨[], by simp [consumedIs], restIs.symm⟩
    | cons first others =>
        cases (List.cons.inj restIs).1
        exfalso
        apply endless delimiter
        · simp [consumedIs]
        · exact delimited.ends

namespace Parses

theorem unread
    (delimited : Delimited text delimiter)
    (parses :
      Parses (text ++ delimiter :: rest) events configuration consumed state
        log) :
    ∃ unread,
      text = consumed ++ unread ∧
        configuration.pending = unread ++ delimiter :: rest :=
  delimited.split parses.endless parses.split

/-- The machine takes at most four steps for each token that it consumes. -/
theorem events_bounded
    {input : List Token}
    (parses : Parses input events configuration consumed state log) :
    events.length ≤ 4 * consumed.length := by
  have counted := parses.counted
  have logged := parses.builds.log_bounded
  rw [List.length_map] at logged
  omega

theorem bounded
    (delimited : Delimited text delimiter)
    (parses :
      Parses (text ++ delimiter :: rest) events configuration consumed state
        log) :
    events.length ≤ 4 * text.length := by
  obtain ⟨unread, rfl, _⟩ := parses.unread delimited
  have bounded := parses.events_bounded
  rw [List.length_append]
  omega

/-- Where a sum is accepted, all of the text has been read. -/
theorem accepts
    {later : List Token}
    (delimited : Delimited text delimiter)
    (parses :
      Parses (text ++ delimiter :: rest) events configuration consumed 1 log)
    (queue : configuration.pending = token :: later)
    (ends : token.kind = "$") :
    configuration = ⟨.int 0, [(.int 1, .nonterminal sum)], delimiter :: rest⟩ ∧
      ∃ tree : Tree sum,
        tree.yield = text.map Token.kind ∧ log = tree.postorder := by
  obtain ⟨unread, textIs, pendingIs⟩ := parses.unread delimited
  have nothing : unread = [] := by
    cases unread with
    | nil => rfl
    | cons first others =>
        rw [queue] at pendingIs
        cases (List.cons.inj pendingIs).1
        exact (delimited.endless token (by simp [textIs]) ends).elim
  subst nothing
  rw [List.append_nil] at textIs
  subst textIs
  obtain ⟨tree, framesAre, kindsAre, logIs⟩ := parses.builds.accepted
  rcases configuration with ⟨initial, frames, pending⟩
  cases parses.initial
  cases framesAre
  cases pendingIs
  exact ⟨rfl, tree, kindsAre.symm, logIs⟩

end Parses

/-- The machine takes no notice of what comes after the end of the input. -/
theorem meets_text
    (delimited : Delimited text delimiter)
    (steps :
      Machine.Steps table (Machine.begin table (text ++ delimiter :: rest))
        events configuration)
    (meets : configuration.Meets token) :
    token ∈ text ++ [delimiter] := by
  obtain ⟨consumed, state, log, parses⟩ := Parses.of_steps steps
  obtain ⟨unread, rfl, pendingIs⟩ := parses.unread delimited
  obtain ⟨shifted, split, framed⟩ := steps.consumes
  have same : shifted = consumed :=
    List.append_cancel_right (split.trans parses.split.symm)
  subst same
  rcases meets with ⟨top, member⟩ | lookahead
  · simp [framed top token member]
  · rw [pendingIs] at lookahead
    cases unread with
    | nil => simp_all
    | cons first others => simp_all

/-- A text that goes along the edge with a sum is accepted. -/
theorem Goes.run_accepts
    {required : List Event → Prop}
    (goes : Goes sum text required)
    (delimited : Delimited text delimiter)
    {granted : Nat}
    (enough : 4 * text.length < granted)
    (rest : List Token) :
    ∃ events,
      Machine.run table granted
          (Machine.begin table (text ++ delimiter :: rest)) =
        ⟨some (.accepted (.int 1)),
          ⟨.int 0, [(.int 1, .nonterminal sum)], delimiter :: rest⟩,
          events ++ [.accept (.int 1)]⟩ ∧
      required events := by
  have follows : delimiter.kind ∈ follow sum := by
    rw [delimited.ends]
    decide
  obtain ⟨events, steps, announced⟩ :=
    goes .first rfl .sum
      (rfl :
        (Machine.begin table (text ++ delimiter :: rest)).pending = _)
      follows
  obtain ⟨consumed, state, log, parses⟩ := Parses.of_steps steps
  have accepted :
      Machine.step table
          ⟨.int 0, [(.int 1, .nonterminal sum)], delimiter :: rest⟩ =
        .ends (.accepted (.int 1)) := by
    rw [Machine.step_of_lookahead rfl, delimited.ends]
    simp only [Machine.Configuration.top, entry_of_acceptance, Machine.obey]
  have within : events.length < granted :=
    Nat.lt_of_le_of_lt (parses.bounded delimited) enough
  exact ⟨events, steps.run_ends accepted within, announced⟩

/-- A text that has a derivation is accepted by way of the rules of the derivation. -/
theorem run_accepts
    (delimited : Delimited text delimiter)
    (tree : Tree sum)
    (yields : text.map Token.kind = tree.yield)
    {granted : Nat}
    (enough : 4 * text.length < granted)
    (rest : List Token) :
    ∃ events,
      Machine.run table granted
          (Machine.begin table (text ++ delimiter :: rest)) =
        ⟨some (.accepted (.int 1)),
          ⟨.int 0, [(.int 1, .nonterminal sum)], delimiter :: rest⟩,
          events⟩ ∧
      events.flatMap Event.rules = tree.postorder.map Value.production := by
  have recognised : Recognises sum tree := recognises tree
  obtain ⟨events, ends, reduced⟩ :=
    Goes.run_accepts (recognised.goes yields) delimited enough rest
  refine ⟨_, ends, ?_⟩
  simp [Event.rules, reduced]

/-- No text has two derivations, since the machine lists the rules of both. -/
theorem derivation_unique
    (delimited : Delimited text delimiter)
    {first second : Tree sum}
    (firstYields : text.map Token.kind = first.yield)
    (secondYields : text.map Token.kind = second.yield) :
    first = second := by
  have enough := Nat.lt_succ_self (4 * text.length)
  obtain ⟨events, firstRun, firstRules⟩ :=
    run_accepts delimited first firstYields enough []
  obtain ⟨others, secondRun, secondRules⟩ :=
    run_accepts delimited second secondYields enough []
  rw [firstRun] at secondRun
  cases secondRun
  rw [firstRules] at secondRules
  apply Derivation.postorder_injective
  apply (List.map_inj_right _).mp secondRules
  intro production other same
  exact Value.production.inj same

/-- A text is refused at one of its tokens, or at its end, unless it has a derivation. -/
theorem run_decides
    (delimited : Delimited text delimiter)
    {granted : Nat}
    (enough : 4 * text.length < granted) :
    (∃ tree : Tree sum, text.map Token.kind = tree.yield) ∨
      ∃ refusing refused,
        (Machine.run table granted
            (Machine.begin table (text ++ delimiter :: rest))).verdict =
          some (.refused refusing refused) := by
  obtain ⟨events, steps, ends⟩ :=
    Machine.run_steps table granted
      (Machine.begin table (text ++ delimiter :: rest))
  obtain ⟨consumed, state, log, parses⟩ := Parses.of_steps steps
  have bounded := parses.bounded delimited
  obtain ⟨unread, _, pendingIs⟩ := parses.unread delimited
  obtain ⟨lookahead, later, queue⟩ :
      ∃ lookahead later, unread ++ delimiter :: rest = lookahead :: later := by
    cases unread with
    | nil => exact ⟨_, _, rfl⟩
    | cons first others => exact ⟨_, _, rfl⟩
  rw [queue] at pendingIs
  generalize
    Machine.run table granted
      (Machine.begin table (text ++ delimiter :: rest)) = ending at *
  cases decided : ending.verdict with
  | none =>
      rw [decided] at ends
      omega
  | some verdict =>
      rw [decided] at ends
      rcases parses.step_cases pendingIs with goesOn | accepts | refuses
      · obtain ⟨_, _, _, _, _, stepped, _⟩ := goesOn
        rw [ends.2] at stepped
        cases stepped
      · obtain ⟨rfl, isEnd, _⟩ := accepts
        obtain ⟨_, tree, yields, _⟩ := parses.accepts delimited pendingIs isEnd
        exact .inl ⟨tree, yields.symm⟩
      · rw [ends.2] at refuses
        cases refuses
        exact .inr ⟨_, _, rfl⟩

end Machine

end ShiftReduce.Grammar.Expression
