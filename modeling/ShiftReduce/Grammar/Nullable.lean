import ShiftReduce.Table.Lookup

namespace ShiftReduce.Grammar.Nullable

/-!
# A grammar with an empty rule

The language of the single sentence `a`, by the rules `S -> A a` and an empty
rule for `A`, so that a reduction consumes nothing.
-/

/-- The start symbol. -/
def start : NonTerminal := ⟨"S"⟩

/-- The symbol that stands for nothing. -/
def blank : NonTerminal := ⟨"A"⟩

/-- The rule `S -> A a`. -/
def sentence : Production :=
  .rule 1 start [.nonterminal blank, .text "a"]

/-- The rule that derives nothing from `A`. -/
def nothing : Production :=
  .rule 2 blank []

/-- The actions of the grammar, state by state. -/
def actionRows : List Row :=
  [⟨.int 0, [(.text "a", .action (.reduce .direct (.production nothing)))]⟩,
   ⟨.int 1, [(.text "a", .action (.shift .direct (.int 2)))]⟩,
   ⟨.int 2, [(.text "$", .action (.reduce .direct (.production sentence)))]⟩,
   ⟨.int 3, [(.text "$", .action (.accept .direct))]⟩]

/-- The gotos of the grammar, state by state. -/
def gotoRows : List Row :=
  [⟨.int 0, [(.nonterminal start, .int 3), (.nonterminal blank, .int 1)]⟩]

/-- The table of the grammar. -/
def table : Table where
  identity := 1
  actions := actionRows.flatMap Row.cells
  gotos := gotoRows.flatMap Row.cells
  initial := .int 0
  diagnosis := .computed

end ShiftReduce.Grammar.Nullable
