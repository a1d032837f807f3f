import ShiftReduce.Value.Access

namespace ShiftReduce

/-!
# Rightmost derivations

A sentential form is a list of kinds and non-terminals.  A rule rewrites the last
non-terminal of a form (`Production.RewritesLast`), and rules that do so one after
the other make up a rightmost derivation (`RightmostDerivation`).

A derivation grows at either end of its forms: a kind can be put to the right of all
of them, where no rewriting takes place, and a form that a rule rewrites into the
first one can be put before it.
-/

/-- A rule rewrites the last non-terminal of a form; only kinds stand after it. -/
inductive Production.RewritesLast
    (production : Production) :
    List Value → List Value → Prop where
  | intro
      {head : NonTerminal}
      {before : List Value}
      {kinds : List String}
      (headed : production.head = .nonterminal head) :
      RewritesLast production
        (before ++ .nonterminal head :: kinds.map .text)
        (before ++ production.body ++ kinds.map .text)

/-- Rules lead from one form to another, each rewriting the last non-terminal. -/
inductive RightmostDerivation :
    List Production → List Value → List Value → Prop where
  | done
      {form : List Value} :
      RightmostDerivation [] form form
  | rewrite
      {production : Production}
      {rules : List Production}
      {form next last : List Value}
      (rewrites : production.RewritesLast form next)
      (derives : RightmostDerivation rules next last) :
      RightmostDerivation (production :: rules) form last

section Forms

variable
  {production : Production}
  {rules : List Production}
  {form next last : List Value}

/-- A kind at the right end is not in the way of a rewriting. -/
theorem Production.RewritesLast.append_kind
    (rewrites : production.RewritesLast form next)
    (kind : String) :
    production.RewritesLast (form ++ [.text kind]) (next ++ [.text kind]) := by
  cases rewrites with
  | @intro head before kinds headed =>
      have extended :
          production.RewritesLast
            (before ++ .nonterminal head :: (kinds ++ [kind]).map .text)
            (before ++ production.body ++ (kinds ++ [kind]).map .text) :=
        .intro headed
      simpa using extended

/-- A kind at the right end of one form stays there in all that follow. -/
theorem RightmostDerivation.append_kind
    (derives : RightmostDerivation rules form last)
    (kind : String) :
    RightmostDerivation rules (form ++ [.text kind]) (last ++ [.text kind]) := by
  induction derives with
  | done =>
      exact .done
  | rewrite rewrites derives inductionHypothesis =>
      exact .rewrite (rewrites.append_kind kind) inductionHypothesis

/-- A rule whose body ends a form leads there from its head. -/
theorem RightmostDerivation.fold
    {before : List Value}
    {head : NonTerminal}
    (derives : RightmostDerivation rules (before ++ production.body) last)
    (headed : production.head = .nonterminal head) :
    RightmostDerivation (production :: rules)
      (before ++ [.nonterminal head]) last := by
  have rewrites :
      production.RewritesLast
        (before ++ .nonterminal head :: ([] : List String).map .text)
        (before ++ production.body ++ ([] : List String).map .text) :=
    .intro headed
  refine .rewrite rewrites ?_
  simpa using derives

end Forms

/-- What a symbol of the stack is called in a form: a token goes by its kind. -/
def Symbol.label :
    Symbol → Value
  | .token carried => .text carried.kind
  | .nonterminal carried => .nonterminal carried
  | .bare identity => .symbol (.bare identity)

end ShiftReduce
