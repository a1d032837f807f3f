import ShiftReduce.Proofs.Grammar.ExpressionLanguage

namespace ShiftReduce.Grammar.Expression

/-!
# Arithmetic with expressions

Formulas are numbers, sums and products of others.  A formula can be written down in
many ways, with parentheses at least where an operand would otherwise be taken for
something else (`Writes`).  Whatever is written down, the machine accepts it, and one
who keeps a stack of values while listening to the machine ends up with the value of
the formula (`Writes.run_evaluates`).
-/

/-- A number, or a sum or a product of two formulas. -/
inductive Formula where
  | literal (number : Nat)
  | sum (left right : Formula)
  | product (left right : Formula)

/-- The number that a formula stands for. -/
def Formula.value :
    Formula → Nat
  | .literal number => number
  | .sum left right => left.value + right.value
  | .product left right => left.value * right.value

/-- The number that a text of decimal digits stands for. -/
def numeral?
    (text : String) :
    Option Nat :=
  if text.toList ≠ [] ∧ text.toList.all Char.isDigit then
    some (Nat.ofDigitChars 10 text.toList 0)
  else
    none

/-- The digits of a number stand for the number. -/
theorem numeral?_toString
    (number : Nat) :
    numeral? (toString number) = some number := by
  have digits : (toString number).toList = Nat.toDigits 10 number :=
    Nat.toList_repr
  have readable :
      Nat.toDigits 10 number ≠ [] ∧
        (Nat.toDigits 10 number).all Char.isDigit = true := by
    constructor
    · exact Nat.toDigits_ne_nil
    · rw [List.all_eq_true]
      intro digit member
      exact Nat.isDigit_of_mem_toDigits (by decide) (by decide) member
  rw [numeral?, digits, if_pos readable, Nat.ofDigitChars_ten_toDigits]

/-- What a text looks like from outside: a sum, a product, or what needs no parentheses. -/
inductive Strength where
  | sum
  | product
  | operand

/-- The non-terminal that texts of a strength are reduced to before all others. -/
def Strength.head :
    Strength → NonTerminal
  | .sum => Expression.sum
  | .product => Expression.product
  | .operand => Expression.factor

/--
The ways to write a formula down.

Operators lean to the left, so the right operand of a sum must not look like a sum,
nor the right operand of a product like a product; and products bind more tightly, so
no operand of a product may look like a sum.  Parentheses turn anything into an
operand, and may stand anywhere, as often as one likes.
-/
inductive Writes :
    Formula → Strength → List Token → Prop where
  | literal
      {number : Nat}
      {token : Token}
      {digits : String}
      (kindIs : token.kind = "id")
      (payload : token.value = .text digits)
      (reads : numeral? digits = some number) :
      Writes (.literal number) .operand [token]
  | enclosed
      {formula : Formula}
      {strength : Strength}
      {text : List Token}
      {opening closing : Token}
      (openingIs : opening.kind = "lparen")
      (inside : Writes formula strength text)
      (closingIs : closing.kind = "rparen") :
      Writes formula .operand (opening :: (text ++ [closing]))
  | sum
      {left right : Formula}
      {leftStrength rightStrength : Strength}
      {before after : List Token}
      {plus : Token}
      (augend : Writes left leftStrength before)
      (plusIs : plus.kind = "plus")
      (addend : Writes right rightStrength after)
      (tight : rightStrength ≠ .sum) :
      Writes (.sum left right) .sum (before ++ plus :: after)
  | product
      {left right : Formula}
      {leftStrength : Strength}
      {before after : List Token}
      {star : Token}
      (multiplicand : Writes left leftStrength before)
      (tight : leftStrength ≠ .sum)
      (starIs : star.kind = "star")
      (multiplier : Writes right .operand after) :
      Writes (.product left right) .product (before ++ star :: after)

/-- A number is written as its digits. -/
theorem Writes.number
    (number : Nat) :
    Writes (.literal number) .operand
      [.plain "id" (.text (toString number))] :=
  .literal rfl rfl (numeral?_toString number)

/-- A formula is written without the end of the input. -/
theorem Writes.endless
    {formula : Formula}
    {strength : Strength}
    {text : List Token}
    (writes : Writes formula strength text) :
    ∀ token ∈ text, token.kind ≠ "$" := by
  induction writes with
  | literal kindIs payload reads => simp [kindIs]
  | enclosed openingIs inside closingIs endless =>
      simp only [List.forall_mem_cons, List.forall_mem_append]
      exact ⟨by simp [openingIs], endless, by simp [closingIs], by simp⟩
  | sum augend plusIs addend tight endlessBefore endlessAfter =>
      simp only [List.forall_mem_cons, List.forall_mem_append]
      exact ⟨endlessBefore, by simp [plusIs], endlessAfter⟩
  | product multiplicand tight starIs multiplier endlessBefore endlessAfter =>
      simp only [List.forall_mem_cons, List.forall_mem_append]
      exact ⟨endlessBefore, by simp [starIs], endlessAfter⟩

/-- What a token is worth: the number that a name spells in digits, or its payload. -/
def worth?
    (token : Token) :
    Option Value :=
  if token.kind = "id" then
    match token.value with
    | .text text =>
        match numeral? text with
        | some number => some (.int number)
        | none => some (.text text)
    | _ => none
  else
    some token.value

/-- What the values of the body of a rule make up. -/
def combined?
    (rule : Value)
    (body : List Value) :
    Option Value :=
  if rule.equals (.production addition) then
    match body with
    | .int first :: _ :: .int third :: _ => some (.int (first + third))
    | _ => none
  else if rule.equals (.production multiplication) then
    match body with
    | .int first :: _ :: .int third :: _ => some (.int (first * third))
    | _ => none
  else if rule.equals (.production parenthesised) then
    body[1]?
  else
    body[0]?

/--
How a stack of values, with the top first, follows what the parser announces.

A shift pushes what the token is worth, and a reduction replaces the values of the
body by what they make up.
-/
def evaluate
    (values : List Value) :
    Event → Option (List Value)
  | .shift _ (.token token) =>
      (worth? token).map (· :: values)
  | .reduce _ (.production production) =>
      if production.length ≤ values.length then
        (combined? (.production production)
            (values.take production.length).reverse).map
          (· :: values.drop production.length)
      else
        none
  | .accept _ => some values
  | _ => none

section Evaluation

variable
  {values : List Value}
  {state value : Value}
  {token : Token}

theorem evaluate_numeral
    {digits : String}
    {number : Nat}
    (kindIs : token.kind = "id")
    (payload : token.value = .text digits)
    (reads : numeral? digits = some number) :
    evaluate values (.shift state (.token token)) =
      some (.int number :: values) := by
  simp [evaluate, worth?, kindIs, payload, reads]

theorem evaluate_sign
    (unnamed : token.kind ≠ "id") :
    evaluate values (.shift state (.token token)) =
      some (token.value :: values) := by
  simp [evaluate, worth?, unnamed]

/-- A reduction puts what the values of a body make up in their place. -/
theorem evaluate_reduce
    {production : Production}
    (body : List Value)
    (fits : body.length = production.length)
    (combined : combined? (.production production) body = some value) :
    evaluate (body.reverse ++ values) (.reduce state (.production production)) =
      some (value :: values) := by
  have covers : body.reverse.length = production.length := by
    rw [List.length_reverse, fits]
  rw [evaluate, if_pos (by simp [fits]), ← covers, List.take_left,
    List.drop_left, List.reverse_reverse, combined]
  rfl

theorem evaluate_addition
    {first third : Int} :
    evaluate (.int third :: value :: .int first :: values)
        (.reduce state (.production addition)) =
      some (.int (first + third) :: values) :=
  evaluate_reduce [.int first, value, .int third] rfl rfl

theorem evaluate_multiplication
    {first third : Int} :
    evaluate (.int third :: value :: .int first :: values)
        (.reduce state (.production multiplication)) =
      some (.int (first * third) :: values) :=
  evaluate_reduce [.int first, value, .int third] rfl rfl

theorem evaluate_parenthesised
    {first third : Value} :
    evaluate (third :: value :: first :: values)
        (.reduce state (.production parenthesised)) =
      some (value :: values) :=
  evaluate_reduce [first, value, third] rfl rfl

theorem evaluate_unit
    {production : Production}
    (unit : production ∈ [summand, multiplicand, name]) :
    evaluate (value :: values) (.reduce state (.production production)) =
      some (value :: values) := by
  simp only [List.mem_cons, List.not_mem_nil, or_false] at unit
  rcases unit with rfl | rfl | rfl
  · exact evaluate_reduce [value] rfl rfl
  · exact evaluate_reduce [value] rfl rfl
  · exact evaluate_reduce [value] rfl rfl

end Evaluation

/-- Announcements that leave a number on top of whatever values there were. -/
def Leaves
    (number : Nat)
    (events : List Event) :
    Prop :=
  ∀ values, events.foldlM evaluate values = some (.int number :: values)

section Texts

variable
  {number : Nat}
  {text : List Token}
  {strength : Strength}

/-- An operand goes where a product goes, with one more reduction. -/
theorem goes_product_of_operand
    (goes : Goes factor text (Leaves number)) :
    Goes product text (Leaves number) := by
  apply goes_ofFactor goes
  intro above later leaves values
  simp only [List.foldlM_append, List.foldlM_cons, List.foldlM_nil,
    Option.bind_eq_bind]
  rw [leaves values, Option.bind_some, evaluate_unit (by simp)]
  rfl

/-- A product goes where a sum goes, with one more reduction. -/
theorem goes_sum_of_product
    (goes : Goes product text (Leaves number)) :
    Goes sum text (Leaves number) := by
  apply goes_ofProduct goes
  intro above later leaves values
  simp only [List.foldlM_append, List.foldlM_cons, List.foldlM_nil,
    Option.bind_eq_bind]
  rw [leaves values, Option.bind_some, evaluate_unit (by simp)]
  rfl

theorem Strength.goes_product
    (tight : strength ≠ .sum)
    (goes : Goes strength.head text (Leaves number)) :
    Goes Expression.product text (Leaves number) := by
  cases strength with
  | sum => exact (tight rfl).elim
  | product => exact goes
  | operand => exact goes_product_of_operand goes

theorem Strength.goes_sum
    (goes : Goes strength.head text (Leaves number)) :
    Goes Expression.sum text (Leaves number) := by
  cases strength with
  | sum => exact goes
  | product => exact goes_sum_of_product goes
  | operand => exact goes_sum_of_product (goes_product_of_operand goes)

/-- Listening to the machine while it reads a formula leaves the value of the formula. -/
theorem Writes.goes
    {formula : Formula}
    (writes : Writes formula strength text) :
    Goes strength.head text (Leaves formula.value) := by
  induction writes with
  | literal kindIs payload reads =>
      apply goes_named kindIs
      intro below above values
      simp only [List.foldlM_cons, List.foldlM_nil, Option.bind_eq_bind]
      rw [evaluate_numeral kindIs payload reads, Option.bind_some,
        evaluate_unit (by simp)]
      rfl
  | @enclosed formula strength text opening closing openingIs inside closingIs
      goes =>
      apply goes_enclose openingIs (Strength.goes_sum goes) closingIs
      intro below inner above later leaves values
      simp only [List.foldlM_cons, List.foldlM_append, List.foldlM_nil,
        Option.bind_eq_bind]
      rw [evaluate_sign (by simp [openingIs]), Option.bind_some, leaves,
        Option.bind_some, evaluate_sign (by simp [closingIs]),
        Option.bind_some, evaluate_parenthesised]
      rfl
  | @sum left right _ _ before after plus augend plusIs addend tight goesBefore
      goesAfter =>
      apply
        goes_add (Strength.goes_sum goesBefore) plusIs
          (Strength.goes_product tight goesAfter)
      intro middle above earlier later leavesAugend leavesAddend values
      simp only [List.foldlM_cons, List.foldlM_append, List.foldlM_nil,
        Option.bind_eq_bind]
      rw [leavesAugend, Option.bind_some, evaluate_sign (by simp [plusIs]),
        Option.bind_some, leavesAddend, Option.bind_some, evaluate_addition,
        ← Int.natCast_add]
      rfl
  | @product left right _ before after star multiplicand tight starIs multiplier
      goesBefore goesAfter =>
      apply
        goes_multiply (Strength.goes_product tight goesBefore) starIs goesAfter
      intro middle above earlier later leavesMultiplicand leavesMultiplier values
      simp only [List.foldlM_cons, List.foldlM_append, List.foldlM_nil,
        Option.bind_eq_bind]
      rw [leavesMultiplicand, Option.bind_some,
        evaluate_sign (by simp [starIs]), Option.bind_some, leavesMultiplier,
        Option.bind_some, evaluate_multiplication, ← Int.natCast_mul]
      rfl

/-- Whatever a formula is written as is accepted, and evaluates to its value. -/
theorem Writes.run_evaluates
    {formula : Formula}
    {delimiter : Token}
    {granted : Nat}
    (writes : Writes formula strength text)
    (delimited : delimiter.kind = "$")
    (enough : 4 * text.length < granted)
    (rest : List Token) :
    ∃ events,
      Machine.run table granted
          (Machine.begin table (text ++ delimiter :: rest)) =
        ⟨some (.accepted (.int 1)),
          ⟨.int 0, [(.int 1, .nonterminal Expression.sum)],
            delimiter :: rest⟩,
          events⟩ ∧
      events.foldlM evaluate [] = some [.int formula.value] := by
  have goes : Goes Expression.sum text (Leaves formula.value) :=
    Strength.goes_sum writes.goes
  obtain ⟨events, ends, leaves⟩ :=
    Goes.run_accepts goes ⟨writes.endless, delimited⟩ enough rest
  refine ⟨_, ends, ?_⟩
  rw [List.foldlM_append, leaves []]
  rfl

end Texts

end ShiftReduce.Grammar.Expression
