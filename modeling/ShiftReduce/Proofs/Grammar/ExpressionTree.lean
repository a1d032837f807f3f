import ShiftReduce.Grammar.Expression
import ShiftReduce.Proofs.Grammar.Derivation

namespace ShiftReduce.Grammar.Expression

/-!
# The trees of expressions

A derivation in the grammar of expressions is a sum, a product or a factor, and each
of the six rules makes it of others (`tree_induction`).  No derivation has more than
three rules for each of its leaves (`postorder_bounded`).
-/

/-- A derivation of a sum, a product or a factor. -/
abbrev Tree
    (head : NonTerminal) :=
  Derivation rules (.nonterminal head)

/-- A sum, a plus sign and a product make up a sum. -/
def Tree.add
    (augend : Tree sum)
    (addend : Tree product) :
    Tree sum :=
  .node addition sum (by simp [rules]) rfl
    (.cons augend (.cons (.leaf "plus") (.cons addend .nil)))

/-- A product is a sum. -/
def Tree.ofProduct
    (operand : Tree product) :
    Tree sum :=
  .node summand sum (by simp [rules]) rfl (.cons operand .nil)

/-- A product, a star and a factor make up a product. -/
def Tree.multiply
    (multiplicand : Tree product)
    (multiplier : Tree factor) :
    Tree product :=
  .node multiplication product (by simp [rules]) rfl
    (.cons multiplicand (.cons (.leaf "star") (.cons multiplier .nil)))

/-- A factor is a product. -/
def Tree.ofFactor
    (operand : Tree factor) :
    Tree product :=
  .node multiplicand product (by simp [rules]) rfl (.cons operand .nil)

/-- A sum in parentheses is a factor. -/
def Tree.enclose
    (inside : Tree sum) :
    Tree factor :=
  .node parenthesised factor (by simp [rules]) rfl
    (.cons (.leaf "lparen") (.cons inside (.cons (.leaf "rparen") .nil)))

/-- A name is a factor. -/
def Tree.named : Tree factor :=
  .node name factor (by simp [rules]) rfl (.cons (.leaf "id") .nil)

/-- A derivation is made by one of the rules. -/
inductive Tree.Made :
    {head : NonTerminal} → Tree head → Prop where
  | add (augend : Tree sum) (addend : Tree product) :
      Made (.add augend addend)
  | ofProduct (operand : Tree product) :
      Made (.ofProduct operand)
  | multiply (multiplicand : Tree product) (multiplier : Tree factor) :
      Made (.multiply multiplicand multiplier)
  | ofFactor (operand : Tree factor) :
      Made (.ofFactor operand)
  | enclose (inside : Tree sum) :
      Made (.enclose inside)
  | named :
      Made .named

theorem Tree.made
    {head : NonTerminal}
    (tree : Tree head) :
    tree.Made := by
  cases tree with
  | node production _ listed headed children =>
      simp only [rules, List.mem_cons, List.not_mem_nil, or_false] at listed
      rcases listed with rfl | rfl | rfl | rfl | rfl | rfl
      · cases headed
        obtain ⟨augend, sign, addend, rfl⟩ := children.eq_three
        rw [sign.eq_leaf]
        exact .add augend addend
      · cases headed
        obtain ⟨operand, rfl⟩ := children.eq_one
        exact .ofProduct operand
      · cases headed
        obtain ⟨multiplicand, sign, multiplier, rfl⟩ := children.eq_three
        rw [sign.eq_leaf]
        exact .multiply multiplicand multiplier
      · cases headed
        obtain ⟨operand, rfl⟩ := children.eq_one
        exact .ofFactor operand
      · cases headed
        obtain ⟨opening, inside, closing, rfl⟩ := children.eq_three
        rw [opening.eq_leaf, closing.eq_leaf]
        exact .enclose inside
      · cases headed
        obtain ⟨leaf, rfl⟩ := children.eq_one
        rw [leaf.eq_leaf]
        exact .named

section Leaves

variable
  (left : Tree sum)
  (middle : Tree product)
  (right : Tree factor)

@[simp]
theorem Tree.yield_add :
    (left.add middle).yield = left.yield ++ "plus" :: middle.yield := by
  simp [add, Derivation.yield, Derivations.yields]

@[simp]
theorem Tree.yield_ofProduct :
    middle.ofProduct.yield = middle.yield := by
  simp [ofProduct, Derivation.yield, Derivations.yields]

@[simp]
theorem Tree.yield_multiply :
    (middle.multiply right).yield = middle.yield ++ "star" :: right.yield := by
  simp [multiply, Derivation.yield, Derivations.yields]

@[simp]
theorem Tree.yield_ofFactor :
    right.ofFactor.yield = right.yield := by
  simp [ofFactor, Derivation.yield, Derivations.yields]

@[simp]
theorem Tree.yield_enclose :
    left.enclose.yield = "lparen" :: (left.yield ++ ["rparen"]) := by
  simp [enclose, Derivation.yield, Derivations.yields]

@[simp]
theorem Tree.yield_named :
    Tree.named.yield = ["id"] := by
  simp [named, Derivation.yield, Derivations.yields]

@[simp]
theorem Tree.postorder_add :
    (left.add middle).postorder =
      left.postorder ++ middle.postorder ++ [addition] := by
  simp [add, Derivation.postorder, Derivations.postorders]

@[simp]
theorem Tree.postorder_ofProduct :
    middle.ofProduct.postorder = middle.postorder ++ [summand] := by
  simp [ofProduct, Derivation.postorder, Derivations.postorders]

@[simp]
theorem Tree.postorder_multiply :
    (middle.multiply right).postorder =
      middle.postorder ++ right.postorder ++ [multiplication] := by
  simp [multiply, Derivation.postorder, Derivations.postorders]

@[simp]
theorem Tree.postorder_ofFactor :
    right.ofFactor.postorder = right.postorder ++ [multiplicand] := by
  simp [ofFactor, Derivation.postorder, Derivations.postorders]

@[simp]
theorem Tree.postorder_enclose :
    left.enclose.postorder = left.postorder ++ [parenthesised] := by
  simp [enclose, Derivation.postorder, Derivations.postorders]

@[simp]
theorem Tree.postorder_named :
    Tree.named.postorder = [name] := by
  simp [named, Derivation.postorder, Derivations.postorders]

end Leaves

/-- What each of the rules keeps holds of all derivations. -/
theorem tree_induction
    {motive : (head : NonTerminal) → Tree head → Prop}
    (add :
      ∀ augend addend,
        motive sum augend → motive product addend →
          motive sum (.add augend addend))
    (ofProduct :
      ∀ operand, motive product operand → motive sum (.ofProduct operand))
    (multiply :
      ∀ multiplicand multiplier,
        motive product multiplicand → motive factor multiplier →
          motive product (.multiply multiplicand multiplier))
    (ofFactor :
      ∀ operand, motive factor operand → motive product (.ofFactor operand))
    (enclose : ∀ inside, motive sum inside → motive factor (.enclose inside))
    (named : motive factor .named)
    (head : NonTerminal)
    (tree : Tree head) :
    motive head tree := by
  generalize size : tree.postorder.length = number
  induction number using Nat.strongRecOn generalizing head with
  | ind number inductionHypothesis =>
      have smaller :
          ∀ (other : NonTerminal) (part : Tree other),
            part.postorder.length < number → motive other part := by
        intro other part less
        exact inductionHypothesis _ less other part rfl
      cases tree.made with
      | add augend addend =>
          simp at size
          exact add augend addend
            (smaller _ augend (by omega)) (smaller _ addend (by omega))
      | ofProduct operand =>
          simp at size
          exact ofProduct operand (smaller _ operand (by omega))
      | multiply multiplicand multiplier =>
          simp at size
          exact multiply multiplicand multiplier
            (smaller _ multiplicand (by omega))
            (smaller _ multiplier (by omega))
      | ofFactor operand =>
          simp at size
          exact ofFactor operand (smaller _ operand (by omega))
      | enclose inside =>
          simp at size
          exact enclose inside (smaller _ inside (by omega))
      | named =>
          exact named

/-- How many rules fewer than three times the leaves a derivation has at least. -/
def slack
    (head : NonTerminal) :
    Nat :=
  if head = factor then 2
  else if head = product then 1
  else 0

/-- A derivation has at most three rules for each of its leaves. -/
theorem postorder_bounded
    {head : NonTerminal}
    (tree : Tree head) :
    tree.postorder.length + slack head ≤ 3 * tree.yield.length := by
  have ofSum : slack sum = 0 := rfl
  have ofProduct : slack product = 1 := rfl
  have ofFactor : slack factor = 2 := rfl
  induction head, tree using tree_induction with
  | add augend addend first second =>
      simp only [Tree.postorder_add, Tree.yield_add, List.length_append,
        List.length_cons, List.length_nil]
      omega
  | ofProduct operand bound =>
      simp only [Tree.postorder_ofProduct, Tree.yield_ofProduct,
        List.length_append, List.length_cons, List.length_nil]
      omega
  | multiply multiplicand multiplier first second =>
      simp only [Tree.postorder_multiply, Tree.yield_multiply,
        List.length_append, List.length_cons, List.length_nil]
      omega
  | ofFactor operand bound =>
      simp only [Tree.postorder_ofFactor, Tree.yield_ofFactor,
        List.length_append, List.length_cons, List.length_nil]
      omega
  | enclose inside bound =>
      simp only [Tree.postorder_enclose, Tree.yield_enclose,
        List.length_append, List.length_cons, List.length_nil]
      omega
  | named =>
      simp [ofFactor]

end ShiftReduce.Grammar.Expression
