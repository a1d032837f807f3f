import ShiftReduce.Table.Lookup
import ShiftReduce.Text.Words

namespace ShiftReduce.Grammar.Single

/-!
# The grammar of one letter

The language of the single sentence `a`, by the one rule `S -> a`.
-/

/-- The start symbol. -/
def start : NonTerminal := ⟨"S"⟩

/-- The rule `S -> a`. -/
def letter : Production :=
  .rule 1 start [.text "a"]

/-- The table of the grammar. -/
def table : Table where
  identity := 0
  actions :=
    [⟨.int 0, .text "a", .action (.shift .direct (.int 1))⟩,
     ⟨.int 1, .text "$", .action (.reduce .direct (.production letter))⟩,
     ⟨.int 2, .text "$", .action (.accept .direct)⟩]
  gotos :=
    [⟨.int 0, .nonterminal start, .int 2⟩]
  initial := .int 0
  diagnosis := .computed

/-- A sentence as tokens: each word is a kind, and the end of input follows. -/
def tokens
    (sentence : String) :
    List Token :=
  (Text.words sentence).map Token.ofKind ++ [.endOfInput]

end ShiftReduce.Grammar.Single
