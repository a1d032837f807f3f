import ShiftReduce.Table.Lookup
import ShiftReduce.Text.Words

namespace ShiftReduce.Grammar.Expression

/-!
# The grammar of expressions

Sums of products of names and parenthesised expressions.  Both operators lean
to the left, and a product binds more tightly than a sum.
-/

/-- A sum. -/
def sum : NonTerminal := ⟨"E"⟩

/-- A product, which is a summand. -/
def product : NonTerminal := ⟨"T"⟩

/-- A factor of a product. -/
def factor : NonTerminal := ⟨"F"⟩

/-- The rule `E -> E plus T`. -/
def addition : Production :=
  .rule 1 sum [.nonterminal sum, .text "plus", .nonterminal product]

/-- The rule `E -> T`. -/
def summand : Production :=
  .rule 2 sum [.nonterminal product]

/-- The rule `T -> T star F`. -/
def multiplication : Production :=
  .rule 3 product [.nonterminal product, .text "star", .nonterminal factor]

/-- The rule `T -> F`. -/
def multiplicand : Production :=
  .rule 4 product [.nonterminal factor]

/-- The rule `F -> lparen E rparen`. -/
def parenthesised : Production :=
  .rule 5 factor [.text "lparen", .nonterminal sum, .text "rparen"]

/-- The rule `F -> id`. -/
def name : Production :=
  .rule 6 factor [.text "id"]

/-- The rules of the grammar, in order of their indices. -/
def rules : List Production :=
  [addition, summand, multiplication, multiplicand, parenthesised, name]

/-- An entry that shifts into a numbered state. -/
def shiftTo
    (state : Int) :
    Value :=
  .action (.shift .direct (.int state))

/-- Entries that reduce by one rule on each of several kinds. -/
def reduceOn
    (production : Production)
    (kinds : List String) :
    List (Value × Value) :=
  kinds.map fun kind =>
    (.text kind, .action (.reduce .direct (.production production)))

/-- What may begin an operand. -/
def operandEntries : List (Value × Value) :=
  [(.text "id", shiftTo 5), (.text "lparen", shiftTo 4)]

/-- The kinds that may follow a sum. -/
def afterSum : List String := ["plus", "rparen", "$"]

/-- The kinds that may follow a factor. -/
def afterFactor : List String := ["plus", "star", "rparen", "$"]

/-- The actions of the grammar, state by state. -/
def actionRows : List Row :=
  [⟨.int 0, operandEntries⟩,
   ⟨.int 1, [(.text "plus", shiftTo 6), (.text "$", .action (.accept .direct))]⟩,
   ⟨.int 2, reduceOn summand afterSum ++ [(.text "star", shiftTo 7)]⟩,
   ⟨.int 3, reduceOn multiplicand afterFactor⟩,
   ⟨.int 4, operandEntries⟩,
   ⟨.int 5, reduceOn name afterFactor⟩,
   ⟨.int 6, operandEntries⟩,
   ⟨.int 7, operandEntries⟩,
   ⟨.int 8, [(.text "plus", shiftTo 6), (.text "rparen", shiftTo 11)]⟩,
   ⟨.int 9, reduceOn addition afterSum ++ [(.text "star", shiftTo 7)]⟩,
   ⟨.int 10, reduceOn multiplication afterFactor⟩,
   ⟨.int 11, reduceOn parenthesised afterFactor⟩]

/-- The gotos of the grammar, state by state. -/
def gotoRows : List Row :=
  [⟨.int 0,
      [(.nonterminal sum, .int 1), (.nonterminal product, .int 2),
       (.nonterminal factor, .int 3)]⟩,
   ⟨.int 4,
      [(.nonterminal sum, .int 8), (.nonterminal product, .int 2),
       (.nonterminal factor, .int 3)]⟩,
   ⟨.int 6, [(.nonterminal product, .int 9), (.nonterminal factor, .int 3)]⟩,
   ⟨.int 7, [(.nonterminal factor, .int 10)]⟩]

/-- The table of the grammar. -/
def table : Table where
  identity := 2
  actions := actionRows.flatMap Row.cells
  gotos := gotoRows.flatMap Row.cells
  initial := .int 0
  diagnosis := .computed

/-- The kind of a word: operators and parentheses have their own, the rest are names. -/
def wordKind
    (word : String) :
    String :=
  match word with
  | "+" => "plus"
  | "*" => "star"
  | "(" => "lparen"
  | ")" => "rparen"
  | _ => "id"

/-- The token of a word, with the word as its payload. -/
def wordToken
    (word : String) :
    Token :=
  .plain (wordKind word) (.text word)

/-- A sentence as tokens, one for each word, and the end of input after them. -/
def tokens
    (sentence : String) :
    List Token :=
  (Text.words sentence).map wordToken ++ [.endOfInput]

end ShiftReduce.Grammar.Expression
