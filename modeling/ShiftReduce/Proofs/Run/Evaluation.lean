import ShiftReduce.Proofs.Grammar.Arithmetic
import ShiftReduce.Proofs.Machine.Refinement

namespace ShiftReduce.Run

open Grammar

/-!
# Evaluating formulas

A parser with the table of expressions accepts every formula that is written down, and
what its observers have heard by then evaluates to the value of the formula
(`evaluates_formula`).
-/

section Formulas

variable
  {ω : Type}
  {deliver : Deliver ω}
  {frame : Frame ω}
  {formula : Expression.Formula}
  {strength : Expression.Strength}
  {text : List Token}

/--
Listening to the parse of a formula yields its value.

Whichever way a formula is written down, with more than four turns granted for each of
its tokens the run accepts it; and if an observer has taken down all events, then the
stack of values that follows these events holds the value of the formula and nothing
else.
-/
theorem evaluates_formula
    {observer : String}
    {heard : ω → List Event}
    {granted : Nat}
    (writes : Expression.Writes formula strength text)
    (loaded :
      frame.parser.Loaded Expression.table
        ((text ++ [Token.endOfInput]).map .token))
    (unused : frame.parser.ran = false)
    (unaccepted : frame.parser.accepted = false)
    (plain : ∀ token ∈ text, frame.store.IsPlain token.value)
    (undisturbed : Undisturbed deliver (.table Expression.table) frame.begun)
    (ends : NotificationsEnd deliver (.table Expression.table) frame.begun)
    (stay :
      PayloadsStay deliver Expression.table frame.begun
        (text ++ [.endOfInput]))
    (records :
      Records deliver (.table Expression.table) frame.begun observer
        (fun event => [event]) heard)
    (silent : heard frame.world = [])
    (enough : 4 * text.length < granted) :
    ∃ after,
      start deliver granted frame = .ok () after ∧
        after.parser.accepted = true ∧
        (heard after.world).foldlM Expression.evaluate [] =
          some [.int formula.value] := by
  have attended := attended_of_tokens undisturbed ends stay
  have allPlain :
      ∀ token ∈ text ++ [.endOfInput], frame.store.IsPlain token.value := by
    rw [List.forall_mem_append]
    exact ⟨plain, fun token member => List.mem_singleton.mp member ▸ rfl⟩
  have concludes :=
    start_concludes Expression.table_orderly loaded unused unaccepted attended
      allPlain granted
  have recorded :=
    start_records Expression.table_orderly loaded unused attended allPlain
      records granted
  have delimited : Token.endOfInput.kind = "$" := rfl
  obtain ⟨events, accepts, evaluates⟩ :=
    writes.run_evaluates delimited enough []
  rw [accepts, silent, List.nil_append, List.flatMap_singleton'] at recorded
  rw [accepts] at concludes
  generalize result : start deliver granted frame = ended at concludes
  cases concludes with
  | @accepted _ _ _ after situation verdict =>
      rw [frameAfter_of_ok result] at recorded
      refine ⟨after, rfl, verdict, ?_⟩
      rw [recorded]
      exact evaluates

end Formulas

open Expression in
/-- The sum of two and three in double parentheses, times four in parentheses. -/
def productOfSum : List Token :=
  .ofKind "lparen" ::
    ((.ofKind "lparen" ::
        (([.plain "id" (.text (toString 2))] ++
          .plain "plus" (.text "+") ::
            [.plain "id" (.text (toString 3))]) ++
          [.ofKind "rparen"])) ++
      [.ofKind "rparen"]) ++
    .ofKind "star" ::
      (.ofKind "lparen" ::
        ([.plain "id" (.text (toString 4))] ++ [.ofKind "rparen"]))

/-- A product of a sum, with more parentheses than it needs, evaluates to twenty. -/
theorem evaluates_product_of_sum :
    ∃ after,
      start (logging "log") 53
          (.fresh Expression.table
            ((productOfSum ++ [Token.endOfInput]).map .token) ["log"] []) =
          .ok () after ∧
        after.parser.accepted = true ∧
        after.world.foldlM Expression.evaluate [] = some [.int 20] := by
  have writes :
      Expression.Writes
        (.product (.sum (.literal 2) (.literal 3)) (.literal 4)) .product
        productOfSum :=
    .product
      (.enclosed rfl
        (.enclosed rfl
          (.sum (.number 2) rfl (.number 3) Expression.Strength.noConfusion)
          rfl)
        rfl)
      Expression.Strength.noConfusion rfl
      (.enclosed rfl (.number 4) rfl)
  have confined :=
    logging_confined "log" (.table Expression.table)
      (Frame.fresh Expression.table
        ((productOfSum ++ [Token.endOfInput]).map .token) ["log"]
        ([] : List Event)).begun
  exact
    evaluates_formula writes
      (Frame.fresh_loaded Expression.table _ ["log"] ([] : List Event))
      rfl rfl
      (by
        simp only [productOfSum, List.cons_append, List.nil_append,
          List.forall_mem_cons]
        exact
          ⟨rfl, rfl, rfl, rfl, rfl, rfl, rfl, rfl, rfl, rfl, rfl, by simp⟩)
      confined.undisturbed
      (logging_notificationsEnd "log" _ _ (by
        intro listener member
        exact ⟨"log", List.mem_singleton.mp member⟩))
      (by
        intro name event moment callback token _ plain
        rw [confined.store_eq callback]
        exact plain)
      (logging_records "log" _ _ (by decide))
      rfl
      (by decide)

end ShiftReduce.Run
