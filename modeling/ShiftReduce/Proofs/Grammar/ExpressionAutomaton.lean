import ShiftReduce.Grammar.Expression
import ShiftReduce.Proofs.Table.Orderly

namespace ShiftReduce.Grammar.Expression

/-!
# The automaton of expressions

The table of expressions, read as an automaton: its edges (`Edge`) and the states in
which it reduces (`Reduces`).  The table has an entry for each of them, and no others
but the acceptance of a sum at the end of the input (`entry_cases`).
-/

/-- The automaton goes from one state to another with a symbol. -/
inductive Edge :
    Int → Value → Int → Prop where
  | sum :
      Edge 0 (.nonterminal sum) 1
  | innerSum :
      Edge 4 (.nonterminal sum) 8
  | product
      {state : Int}
      (begins : state ∈ [0, 4]) :
      Edge state (.nonterminal product) 2
  | addend :
      Edge 6 (.nonterminal product) 9
  | factor
      {state : Int}
      (begins : state ∈ [0, 4, 6]) :
      Edge state (.nonterminal factor) 3
  | multiplier :
      Edge 7 (.nonterminal factor) 10
  | name
      {state : Int}
      (begins : state ∈ [0, 4, 6, 7]) :
      Edge state (.text "id") 5
  | opening
      {state : Int}
      (begins : state ∈ [0, 4, 6, 7]) :
      Edge state (.text "lparen") 4
  | closing :
      Edge 8 (.text "rparen") 11
  | plus
      {state : Int}
      (goesOn : state ∈ [1, 8]) :
      Edge state (.text "plus") 6
  | star
      {state : Int}
      (goesOn : state ∈ [2, 9]) :
      Edge state (.text "star") 7

/-- The automaton reduces by a rule in a state on a kind. -/
inductive Reduces :
    Int → Production → String → Prop where
  | addition
      {kind : String}
      (follows : kind ∈ afterSum) :
      Reduces 9 addition kind
  | summand
      {kind : String}
      (follows : kind ∈ afterSum) :
      Reduces 2 summand kind
  | multiplication
      {kind : String}
      (follows : kind ∈ afterFactor) :
      Reduces 10 multiplication kind
  | multiplicand
      {kind : String}
      (follows : kind ∈ afterFactor) :
      Reduces 3 multiplicand kind
  | parenthesised
      {kind : String}
      (follows : kind ∈ afterFactor) :
      Reduces 11 parenthesised kind
  | name
      {kind : String}
      (follows : kind ∈ afterFactor) :
      Reduces 5 name kind

theorem sum_edge
    {source target : Int}
    (edge : Edge source (.nonterminal sum) target) :
    source ∈ [0, 4] ∧ target ∈ [1, 8] := by
  generalize isSum : Value.nonterminal sum = symbol at edge
  cases edge with
  | sum | innerSum => exact ⟨by decide, by decide⟩
  | _ => simp [sum, product, factor] at isSum

theorem product_edge
    {source target : Int}
    (edge : Edge source (.nonterminal product) target) :
    source ∈ [0, 4, 6] ∧ target ∈ [2, 9] := by
  generalize isProduct : Value.nonterminal product = symbol at edge
  cases edge with
  | product begins =>
      have begins : source ∈ [0, 4] ++ [6] := List.mem_append_left _ begins
      exact ⟨begins, by decide⟩
  | addend => exact ⟨by decide, by decide⟩
  | _ => simp [sum, product, factor] at isProduct

theorem factor_edge
    {source target : Int}
    (edge : Edge source (.nonterminal factor) target) :
    source ∈ [0, 4, 6, 7] := by
  generalize isFactor : Value.nonterminal factor = symbol at edge
  cases edge with
  | factor begins =>
      have begins : source ∈ [0, 4, 6] ++ [7] := List.mem_append_left _ begins
      exact begins
  | multiplier => decide
  | _ => simp [sum, product, factor] at isFactor

theorem table_orderly :
    table.Orderly where
  initial := rfl
  actions := by decide
  gotos := by decide
  diagnosis := rfl

theorem entry_of_edge
    {source target : Int}
    {kind : String}
    (edge : Edge source (.text kind) target) :
    table.actionAt (.int source) kind = shiftTo target := by
  cases edge with
  | name begins | opening begins =>
      simp only [List.mem_cons, List.not_mem_nil, or_false] at begins
      rcases begins with rfl | rfl | rfl | rfl <;> rfl
  | closing => rfl
  | plus goesOn | star goesOn =>
      simp only [List.mem_cons, List.not_mem_nil, or_false] at goesOn
      rcases goesOn with rfl | rfl <;> rfl

theorem goto_of_edge
    {source target : Int}
    {head : NonTerminal}
    (edge : Edge source (.nonterminal head) target) :
    table.gotoAt? (.int source) (.nonterminal head) = some (.int target) := by
  cases edge with
  | sum => rfl
  | innerSum => rfl
  | addend => rfl
  | multiplier => rfl
  | product begins =>
      simp only [List.mem_cons, List.not_mem_nil, or_false] at begins
      rcases begins with rfl | rfl <;> rfl
  | factor begins =>
      simp only [List.mem_cons, List.not_mem_nil, or_false] at begins
      rcases begins with rfl | rfl | rfl <;> rfl

theorem entry_of_reduces
    {state : Int}
    {production : Production}
    {kind : String}
    (reduces : Reduces state production kind) :
    table.actionAt (.int state) kind =
      .action (.reduce .direct (.production production)) := by
  cases reduces with
  | addition follows | summand follows =>
      simp only [afterSum, List.mem_cons, List.not_mem_nil, or_false]
        at follows
      rcases follows with rfl | rfl | rfl <;> rfl
  | multiplication follows | multiplicand follows | parenthesised follows
  | name follows =>
      simp only [afterFactor, List.mem_cons, List.not_mem_nil, or_false]
        at follows
      rcases follows with rfl | rfl | rfl | rfl <;> rfl

theorem entry_of_acceptance :
    table.actionAt (.int 1) "$" = .action (.accept .direct) :=
  rfl

/-- What the table has for a state and a kind. -/
inductive Entry :
    Int → String → Value → Prop where
  | shift
      {source target : Int}
      {kind : String}
      (edge : Edge source (.text kind) target) :
      Entry source kind (shiftTo target)
  | reduce
      {state : Int}
      {production : Production}
      {kind : String}
      (reduces : Reduces state production kind) :
      Entry state kind (.action (.reduce .direct (.production production)))
  | accept :
      Entry 1 "$" (.action (.accept .direct))

/-- The entries of a row are what the table has for its state. -/
def IsRow
    (state : Int)
    (entries : List (Value × Value)) :
    Prop :=
  ∀ entry ∈ entries,
    ∃ kind, entry.1 = .text kind ∧ Entry state kind entry.2

theorem isRow_operands
    {state : Int}
    (begins : state ∈ [0, 4, 6, 7]) :
    IsRow state operandEntries := by
  intro entry member
  simp only [operandEntries, List.mem_cons, List.not_mem_nil, or_false]
    at member
  rcases member with rfl | rfl
  · exact ⟨"id", rfl, .shift (.name begins)⟩
  · exact ⟨"lparen", rfl, .shift (.opening begins)⟩

theorem isRow_reduceOn
    {state : Int}
    {production : Production}
    {kinds : List String}
    (reduces : ∀ kind ∈ kinds, Reduces state production kind) :
    IsRow state (reduceOn production kinds) := by
  intro entry member
  obtain ⟨kind, listed, rfl⟩ := List.mem_map.mp member
  exact ⟨kind, rfl, .reduce (reduces kind listed)⟩

theorem isRow_append
    {state : Int}
    {first second : List (Value × Value)}
    (firstRow : IsRow state first)
    (secondRow : IsRow state second) :
    IsRow state (first ++ second) := by
  intro entry member
  rcases List.mem_append.mp member with inFirst | inSecond
  · exact firstRow entry inFirst
  · exact secondRow entry inSecond

theorem isRow_single
    {state : Int}
    {kind : String}
    {entry : Value}
    (holds : Entry state kind entry) :
    IsRow state [(.text kind, entry)] := by
  intro other member
  rw [List.mem_singleton.mp member]
  exact ⟨kind, rfl, holds⟩

theorem isRow_of_mem
    {row : Row}
    (member : row ∈ actionRows) :
    ∃ state, row.state = .int state ∧ IsRow state row.entries := by
  simp only [actionRows, List.mem_cons, List.not_mem_nil, or_false] at member
  rcases member with rfl | rfl | rfl | rfl | rfl | rfl | rfl | rfl | rfl | rfl |
    rfl | rfl
  · exact ⟨0, rfl, isRow_operands (by decide)⟩
  · exact ⟨1, rfl,
      isRow_append
        (isRow_single (.shift (.plus (by decide))))
        (isRow_single .accept)⟩
  · exact ⟨2, rfl,
      isRow_append
        (isRow_reduceOn fun _ => .summand)
        (isRow_single (.shift (.star (by decide))))⟩
  · exact ⟨3, rfl, isRow_reduceOn fun _ => .multiplicand⟩
  · exact ⟨4, rfl, isRow_operands (by decide)⟩
  · exact ⟨5, rfl, isRow_reduceOn fun _ => .name⟩
  · exact ⟨6, rfl, isRow_operands (by decide)⟩
  · exact ⟨7, rfl, isRow_operands (by decide)⟩
  · exact ⟨8, rfl,
      isRow_append
        (isRow_single (.shift (.plus (by decide))))
        (isRow_single (.shift .closing))⟩
  · exact ⟨9, rfl,
      isRow_append
        (isRow_reduceOn fun _ => .addition)
        (isRow_single (.shift (.star (by decide))))⟩
  · exact ⟨10, rfl, isRow_reduceOn fun _ => .multiplication⟩
  · exact ⟨11, rfl, isRow_reduceOn fun _ => .parenthesised⟩

theorem pair_equals_iff
    (first second : Int)
    (firstKind secondKind : String) :
    (Cell.pair (.int first) (.text firstKind)).equals
        (Cell.pair (.int second) (.text secondKind)) = true ↔
      first = second ∧ firstKind = secondKind := by
  change
    Id.run
        (Value.agreesAll .byPlace
          [.int first, .text firstKind] [.int second, .text secondKind]) =
      true ↔ _
  rw [Value.agreesAll_byPlace_cons, Value.agreesAll_byPlace_cons]
  simp [Value.equals, Value.agrees, Value.agreesAll, Id.run, pure]

/-- The table has nothing for a state and a kind but what the automaton does. -/
theorem entry_cases
    (state : Int)
    (kind : String) :
    Entry state kind (table.actionAt (.int state) kind) ∨
      table.actionAt (.int state) kind = .action (.error .direct) := by
  unfold Table.actionAt
  cases found : Cell.entryAt? table.actions (.int state) (.text kind) with
  | none => exact .inr rfl
  | some entry =>
      left
      obtain ⟨cell, member, rfl, same⟩ := Cell.entryAt?_mem found
      obtain ⟨row, rowMember, inRow⟩ := List.mem_flatMap.mp member
      obtain ⟨pair, pairMember, rfl⟩ := List.mem_map.mp inRow
      obtain ⟨number, stateIs, isRow⟩ := isRow_of_mem rowMember
      obtain ⟨column, columnIs, holds⟩ := isRow pair pairMember
      rw [stateIs, columnIs, pair_equals_iff] at same
      obtain ⟨rfl, rfl⟩ := same
      exact holds

end ShiftReduce.Grammar.Expression
