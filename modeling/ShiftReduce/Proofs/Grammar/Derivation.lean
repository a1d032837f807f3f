import ShiftReduce.Value.Access

namespace ShiftReduce

/-!
# Derivation trees

A derivation by the rules of a grammar is a tree whose leaves are kinds and whose
nodes are rules, each above derivations of the symbols of its body.  Reading the
rules of a tree in postorder lists them as a parser reduces by them.  Such a listing
can be read backwards in one way only, so it determines the tree
(`Derivation.postorder_injective`).
-/

mutual

/-- A derivation of a symbol: a kind stands for itself, a non-terminal for a body. -/
inductive Derivation
    (rules : List Production) :
    Value → Type where
  | leaf (kind : String) :
      Derivation rules (.text kind)
  | node
      (production : Production)
      (head : NonTerminal)
      (listed : production ∈ rules)
      (headed : production.head = .nonterminal head)
      (children : Derivations rules production.body) :
      Derivation rules (.nonterminal head)

/-- Derivations of several symbols, one after the other. -/
inductive Derivations
    (rules : List Production) :
    List Value → Type where
  | nil :
      Derivations rules []
  | cons
      {symbol : Value}
      {symbols : List Value}
      (first : Derivation rules symbol)
      (rest : Derivations rules symbols) :
      Derivations rules (symbol :: symbols)

end

variable {rules : List Production}

mutual

/-- The kinds at the leaves of a derivation, from left to right. -/
def Derivation.yield
    {symbol : Value} :
    Derivation rules symbol → List String
  | .leaf kind => [kind]
  | .node _ _ _ _ children => children.yields

/-- The kinds at the leaves of derivations, from left to right. -/
def Derivations.yields
    {symbols : List Value} :
    Derivations rules symbols → List String
  | .nil => []
  | .cons first rest => first.yield ++ rest.yields

end

mutual

/-- The rules of a derivation, each after those below it. -/
def Derivation.postorder
    {symbol : Value} :
    Derivation rules symbol → List Production
  | .leaf _ => []
  | .node production _ _ _ children => children.postorders ++ [production]

/-- The rules of derivations, those of the first ones first. -/
def Derivations.postorders
    {symbols : List Value} :
    Derivations rules symbols → List Production
  | .nil => []
  | .cons first rest => first.postorder ++ rest.postorders

end

mutual

/-- Whatever stands before it, the postorder of a derivation is the end of one listing only. -/
theorem Derivation.eq_of_postorder
    {symbol : Value}
    {before otherBefore : List Production} :
    ∀ first second : Derivation rules symbol,
      before ++ first.postorder = otherBefore ++ second.postorder →
        first = second ∧ before = otherBefore
  | .leaf kind, second, same => by
      cases second
      simpa [Derivation.postorder] using same
  | .node production head listed headed children, second, same => by
      cases second with
      | node other _ _ otherHeaded otherChildren =>
          simp only [Derivation.postorder, ← List.append_assoc] at same
          obtain ⟨samePart, sameRule⟩ := List.append_inj' same rfl
          have isOther : production = other := by
            simpa using sameRule
          subst isOther
          obtain ⟨sameChildren, sameBefore⟩ :=
            Derivations.eq_of_postorders children otherChildren samePart
          subst sameChildren
          exact ⟨rfl, sameBefore⟩

theorem Derivations.eq_of_postorders
    {symbols : List Value}
    {before otherBefore : List Production} :
    ∀ first second : Derivations rules symbols,
      before ++ first.postorders = otherBefore ++ second.postorders →
        first = second ∧ before = otherBefore
  | .nil, second, same => by
      cases second
      simpa [Derivations.postorders] using same
  | .cons first rest, second, same => by
      cases second with
      | cons otherFirst otherRest =>
          simp only [Derivations.postorders, ← List.append_assoc] at same
          obtain ⟨sameRest, samePart⟩ :=
            Derivations.eq_of_postorders rest otherRest same
          obtain ⟨sameFirst, sameBefore⟩ :=
            Derivation.eq_of_postorder first otherFirst samePart
          subst sameRest sameFirst
          exact ⟨rfl, sameBefore⟩

end

/-- A derivation of a symbol is determined by its rules in postorder. -/
theorem Derivation.postorder_injective
    {symbol : Value}
    {first second : Derivation rules symbol}
    (same : first.postorder = second.postorder) :
    first = second :=
  (Derivation.eq_of_postorder first second (congrArg ([] ++ ·) same)).1

theorem Derivation.eq_leaf
    {kind : String}
    (derivation : Derivation rules (.text kind)) :
    derivation = .leaf kind := by
  cases derivation
  rfl

theorem Derivations.eq_one
    {symbol : Value}
    (derivations : Derivations rules [symbol]) :
    ∃ only, derivations = .cons only .nil := by
  cases derivations with
  | cons only rest =>
      cases rest
      exact ⟨only, rfl⟩

theorem Derivations.eq_three
    {first second third : Value}
    (derivations : Derivations rules [first, second, third]) :
    ∃ left middle right,
      derivations = .cons left (.cons middle (.cons right .nil)) := by
  cases derivations with
  | cons left rest =>
      cases rest with
      | cons middle rest =>
          obtain ⟨right, rfl⟩ := rest.eq_one
          exact ⟨left, middle, right, rfl⟩

end ShiftReduce
