import ShiftReduce.Parser.Trace

namespace ShiftReduce.TraceBlock

/-!
# Columns of a stack

A stack is shown in two lines, with every symbol above its state.  The lines begin with
labels of the same length.  A symbol takes up its own width, and a state the width of its
symbol or its own, whichever is greater.  So a state begins to the right of its symbol by as
much as the states before it stick out from under their symbols (`HasColumns.stateOffset_eq`).

Hence the states of a stack begin below their symbols exactly if no state but the last is
wider than its symbol, and never to the left of them (`columns_aligned_iff`).
-/

/-- Where a piece of a line begins: behind what is printed of the pieces before it. -/
def offset
    (line : List Rendering)
    (place : Nat) :
    Nat :=
  (printed (line.take place)).length

/-- Where a symbol begins in the line of symbols, behind the label. -/
def symbolOffset
    (symbols : List Symbol)
    (place : Nat) :
    Nat :=
  offset (symbolLine symbols) (place + 1)

/-- Where a state begins in the line of states, behind the label. -/
def stateOffset
    (symbols : List Symbol)
    (states : List Value)
    (place : Nat) :
    Nat :=
  offset (stateLine symbols states) (place + 1)

/-- A text stands in a line so many characters from its beginning. -/
def StandsAt
    (line : String)
    (distance : Nat)
    (text : String) :
    Prop :=
  ∃ before behind,
    line = before ++ text ++ behind ∧ before.length = distance

/-- The shown forms of a symbol and of the state below it. -/
structure Column where
  symbol : String
  state : String
  deriving Repr, DecidableEq

/-- The columns of a stack are the shown forms of its symbols and states, one by one. -/
structure HasColumns
    (symbols : List Symbol)
    (states : List Value)
    (columns : List Column) :
    Prop where
  symbolsShown :
    symbols.map Symbol.shown = columns.map fun column => .ok column.symbol
  statesShown :
    states.map Value.shown = columns.map fun column => .ok column.state

namespace Column

/-- What a column has printed in the line of symbols. -/
def symbolText
    (column : Column) :
    String :=
  column.symbol ++ " "

/-- What a column has printed in the line of states. -/
def stateText
    (column : Column) :
    String :=
  padded column.symbol.length column.state ++ " "

/-- By how much the state of a column is wider than its symbol. -/
def excess
    (column : Column) :
    Nat :=
  column.state.length - column.symbol.length

theorem excess_eq_zero_iff
    {column : Column} :
    column.excess = 0 ↔ column.state.length ≤ column.symbol.length :=
  Nat.sub_eq_zero_iff_le

/-- A column is as wide below as above, and what the state sticks out. -/
theorem length_stateText
    (column : Column) :
    column.stateText.length = column.symbolText.length + column.excess := by
  simp only [stateText, symbolText, padded, excess, String.length_append,
    String.length_ofList, List.length_replicate]
  omega

/-- By how much the states of several columns stick out in all. -/
def overhang :
    List Column → Nat
  | [] => 0
  | column :: rest => column.excess + overhang rest

theorem overhang_eq_zero_iff
    {columns : List Column} :
    overhang columns = 0 ↔ ∀ column ∈ columns, column.excess = 0 := by
  induction columns with
  | nil => simp [overhang]
  | cons column rest inductionHypothesis =>
      rw [overhang, Nat.add_eq_zero_iff, inductionHypothesis, List.forall_mem_cons]

/-- Nothing sticks out before any column exactly if nothing does but at the last. -/
theorem overhangs_eq_zero_iff
    {columns : List Column} :
    (∀ place < columns.length, overhang (columns.take place) = 0) ↔
      ∀ column ∈ columns.dropLast, column.excess = 0 := by
  rw [List.dropLast_eq_take]
  constructor
  · intro nothing column member
    have inhabited : 0 < columns.length :=
      List.length_pos_of_mem (List.mem_of_mem_take member)
    have beforeLast := nothing (columns.length - 1) (Nat.sub_one_lt_of_lt inhabited)
    exact overhang_eq_zero_iff.mp beforeLast column member
  · intro nothing place inside
    rw [overhang_eq_zero_iff]
    intro column before
    exact nothing column
      (List.take_subset_take_left columns (Nat.le_sub_one_of_lt inside) before)

end Column

section Lines

variable {texts : List String}

theorem printed_texts_append
    (texts : List String)
    (rest : List Rendering) :
    printed (texts.map .ok ++ rest) = printed (texts.map .ok) ++ printed rest := by
  induction texts with
  | nil => exact String.empty_append.symm
  | cons text others inductionHypothesis =>
      simp only [List.map_cons, List.cons_append, printed, inductionHypothesis,
        String.append_assoc]

/-- Columns are as wide below as above, and what their states stick out in all. -/
theorem length_printed_stateTexts
    (columns : List Column) :
    (printed ((columns.map Column.stateText).map .ok)).length =
      (printed ((columns.map Column.symbolText).map .ok)).length +
        Column.overhang columns := by
  induction columns with
  | nil => rfl
  | cons column rest inductionHypothesis =>
      simp only [List.map_cons, printed, String.length_append, inductionHypothesis,
        Column.length_stateText, Column.overhang]
      omega

/-- A text that a piece begins with stands where the piece begins. -/
theorem standsAt_offset
    {place : Nat}
    {text behind : String}
    (found : texts[place]? = some (text ++ behind)) :
    StandsAt (printed (texts.map .ok)) (offset (texts.map .ok) place) text := by
  obtain ⟨inside, isPiece⟩ := List.getElem?_eq_some_iff.mp found
  refine
    ⟨printed ((texts.take place).map .ok),
      behind ++ printed ((texts.drop (place + 1)).map .ok), ?_, ?_⟩
  · have split : texts = texts.take place ++ (text ++ behind) :: texts.drop (place + 1) := by
      rw [← isPiece, List.getElem_cons_drop, List.take_append_drop]
    rw [congrArg (List.map Except.ok) split, List.map_append, printed_texts_append,
      List.map_cons, printed]
    simp only [String.append_assoc]
  · rw [offset, List.map_take]

/-- A line that has a text for each column between its label and its end. -/
def columnLine
    (label : String)
    (text : Column → String)
    (columns : List Column) :
    List String :=
  label :: columns.map text ++ ["\n"]

variable
  {label : String}
  {text : Column → String}
  {columns : List Column}
  {place : Nat}

/-- What comes before a column in a line: the label, and the texts of earlier columns. -/
theorem offset_columnLine
    (inside : place < columns.length) :
    offset ((columnLine label text columns).map .ok) (place + 1) =
      label.length + (printed (((columns.take place).map text).map .ok)).length := by
  have within : place ≤ (columns.map text).length := by
    rw [List.length_map]
    exact Nat.le_of_lt inside
  rw [offset, ← List.map_take, columnLine, List.cons_append, List.take_succ_cons,
    List.take_append_of_le_length within, ← List.map_take, List.map_cons, printed,
    String.length_append]

theorem getElem?_columnLine
    {column : Column}
    (found : columns[place]? = some column) :
    (columnLine label text columns)[place + 1]? = some (text column) := by
  have inside : place < (columns.map text).length := by
    rw [List.length_map]
    exact (List.getElem?_eq_some_iff.mp found).1
  rw [columnLine, List.cons_append, List.getElem?_cons_succ,
    List.getElem?_append_left inside, List.getElem?_map, found, Option.map_some]

end Lines

namespace HasColumns

variable
  {symbols : List Symbol}
  {states : List Value}
  {columns : List Column}
  {place : Nat}

/-- The line of symbols, if all of them can be shown. -/
theorem symbolLine_eq
    (has : HasColumns symbols states columns) :
    symbolLine symbols =
      (columnLine "STACK: " Column.symbolText columns).map .ok := by
  have pieces :
      symbols.map symbolPiece =
        (symbols.map Symbol.shown).map fun rendering => do
          let text ← rendering
          return text ++ " " := by
    rw [List.map_map]
    rfl
  rw [symbolLine, pieces, has.symbolsShown, List.map_map]
  simp only [columnLine, List.map_cons, List.map_append, List.map_map, List.map_nil]
  rfl

/-- The line of states, if all of them and their symbols can be shown. -/
theorem stateLine_eq
    (has : HasColumns symbols states columns) :
    stateLine symbols states =
      (columnLine "       " Column.stateText columns).map .ok := by
  have pieces :
      List.zipWith statePiece symbols states =
        List.zipWith
          (fun symbol state => do
            let symbolText ← symbol
            let stateText ← state
            return padded symbolText.length stateText ++ " ")
          (symbols.map Symbol.shown) (states.map Value.shown) := by
    rw [List.zipWith_map]
    rfl
  rw [stateLine, pieces, has.symbolsShown, has.statesShown, List.zipWith_map,
    List.zipWith_self]
  simp only [columnLine, List.map_cons, List.map_append, List.map_map, List.map_nil]
  rfl

/-- What is printed of a stack is its two lines. -/
theorem text_eq
    (has : HasColumns symbols states columns) :
    (stack symbols states).text =
      printed (symbolLine symbols) ++ printed (stateLine symbols states) := by
  rw [text, pieces, has.symbolLine_eq, printed_texts_append]

/-- A state begins behind its symbol by what the states before it stick out. -/
theorem stateOffset_eq
    (has : HasColumns symbols states columns)
    (inside : place < columns.length) :
    stateOffset symbols states place =
      symbolOffset symbols place + Column.overhang (columns.take place) := by
  rw [stateOffset, symbolOffset, has.stateLine_eq, has.symbolLine_eq,
    offset_columnLine inside, offset_columnLine inside, length_printed_stateTexts,
    ← Nat.add_assoc]
  -- The two labels are equally long.
  rfl

/-- Symbols and states stand in their lines where they are said to begin. -/
theorem standsAt
    (has : HasColumns symbols states columns)
    {column : Column}
    (found : columns[place]? = some column) :
    StandsAt (printed (symbolLine symbols)) (symbolOffset symbols place)
        column.symbol ∧
      StandsAt (printed (stateLine symbols states))
        (stateOffset symbols states place) column.state := by
  rw [symbolOffset, stateOffset, has.symbolLine_eq, has.stateLine_eq]
  constructor
  · exact standsAt_offset (getElem?_columnLine found)
  · apply standsAt_offset
    rw [getElem?_columnLine found, Column.stateText, padded, String.append_assoc]

/-- The states begin below their symbols exactly if none but the last is too wide. -/
theorem aligned_iff
    (has : HasColumns symbols states columns) :
    (∀ place < columns.length,
        stateOffset symbols states place = symbolOffset symbols place) ↔
      ∀ column ∈ columns.dropLast, column.state.length ≤ column.symbol.length := by
  have alignedAt :
      ∀ place < columns.length,
        (stateOffset symbols states place = symbolOffset symbols place ↔
          Column.overhang (columns.take place) = 0) := by
    intro place inside
    rw [has.stateOffset_eq inside, Nat.add_eq_left]
  calc
    (∀ place < columns.length,
        stateOffset symbols states place = symbolOffset symbols place) ↔
        ∀ place < columns.length, Column.overhang (columns.take place) = 0 :=
      forall₂_congr alignedAt
    _ ↔ ∀ column ∈ columns.dropLast, column.excess = 0 :=
      Column.overhangs_eq_zero_iff
    _ ↔ ∀ column ∈ columns.dropLast, column.state.length ≤ column.symbol.length :=
      forall₂_congr fun _ _ => Column.excess_eq_zero_iff

end HasColumns

/-- Pieces that are printed to the end are texts. -/
theorem exists_text_of_obstacle?
    {pieces : List Rendering}
    (fit : obstacle? pieces = none) :
    ∀ piece ∈ pieces, ∃ text, piece = .ok text := by
  induction pieces with
  | nil => simp
  | cons first rest inductionHypothesis =>
      cases first with
      | error misfit => cases fit
      | ok text =>
          intro piece member
          rcases List.mem_cons.mp member with rfl | later
          · exact ⟨text, rfl⟩
          · exact inductionHypothesis fit piece later

theorem shown_of_statePiece
    {symbol : Symbol}
    {state : Value}
    {text : String}
    (piece : statePiece symbol state = .ok text) :
    ∃ column : Column,
      symbol.shown = .ok column.symbol ∧ state.shown = .ok column.state := by
  unfold statePiece at piece
  cases symbolShown : symbol.shown with
  | error misfit =>
      rw [symbolShown] at piece
      cases piece
  | ok symbolText =>
      cases stateShown : state.shown with
      | error misfit =>
          rw [symbolShown, stateShown] at piece
          cases piece
      | ok stateText => exact ⟨⟨symbolText, stateText⟩, rfl, rfl⟩

/-- A line of states that can be printed has columns, since it shows the symbols too. -/
theorem exists_columns
    {symbols : List Symbol}
    {states : List Value}
    (paired : symbols.length = states.length)
    (fit :
      ∀ piece ∈ List.zipWith statePiece symbols states, ∃ text, piece = .ok text) :
    ∃ columns, HasColumns symbols states columns := by
  induction symbols generalizing states with
  | nil =>
      obtain rfl := List.eq_nil_of_length_eq_zero paired.symm
      exact ⟨[], rfl, rfl⟩
  | cons symbol symbols inductionHypothesis =>
      cases states with
      | nil => cases paired
      | cons state states =>
          obtain ⟨text, piece⟩ := fit _ List.mem_cons_self
          obtain ⟨column, symbolShown, stateShown⟩ := shown_of_statePiece piece
          obtain ⟨columns, has⟩ :=
            inductionHypothesis (Nat.succ.inj paired) fun other member =>
              fit other (List.mem_cons_of_mem _ member)
          refine ⟨column :: columns, ?_, ?_⟩
          · rw [List.map_cons, List.map_cons, symbolShown, has.symbolsShown]
          · rw [List.map_cons, List.map_cons, stateShown, has.statesShown]

/--
Alignment of a stack that a parser prints.

As many symbols as states, if they can all be shown, make columns.  Their symbols and
states stand in the two lines that are printed, each at its offset.  No state begins to the
left of its symbol; and all begin below their symbols exactly if no state but the last is
wider than its symbol.
-/
theorem columns_aligned_iff
    {parser : Parser}
    {store : Store}
    {symbols : List Symbol}
    {states : List Value}
    (block : parser.stackBlock.resolve store = .stack symbols states)
    (paired : parser.symbols.length = parser.states.length)
    (printable : (parser.stackBlock.resolve store).misfit? = none) :
    (∃ columns, HasColumns symbols states columns) ∧
      ∀ columns,
        HasColumns symbols states columns →
          (parser.stackBlock.resolve store).text =
              printed (symbolLine symbols) ++ printed (stateLine symbols states) ∧
            (∀ place column,
              columns[place]? = some column →
                StandsAt (printed (symbolLine symbols)) (symbolOffset symbols place)
                    column.symbol ∧
                  StandsAt (printed (stateLine symbols states))
                    (stateOffset symbols states place) column.state) ∧
            ((∀ place < columns.length,
                stateOffset symbols states place = symbolOffset symbols place) ↔
              ∀ column ∈ columns.dropLast,
                column.state.length ≤ column.symbol.length) ∧
            ∀ place < columns.length,
              symbolOffset symbols place ≤ stateOffset symbols states place := by
  rw [block] at printable ⊢
  obtain ⟨rfl, rfl⟩ := stack.inj block
  constructor
  · apply exists_columns
    · simpa using paired
    · intro piece member
      apply exists_text_of_obstacle? printable
      simp only [pieces, stateLine, List.mem_append, List.mem_cons, member, true_or,
        or_true]
  · intro columns has
    refine ⟨has.text_eq, fun _ _ => has.standsAt, has.aligned_iff, ?_⟩
    intro place inside
    rw [has.stateOffset_eq inside]
    exact Nat.le_add_right _ _

/-- A parser with a state that is wider than the symbol above it. -/
def wideParser : Parser :=
  { Parser.create .none true with
    states := [.int 3, .int 10, .int 0]
    symbols :=
      [.token ⟨.plain, "plus", .text "+"⟩, .nonterminal ⟨"E"⟩, Parser.bottomMarker] }

/-- The columns of that parser. -/
def wideColumns : List Column :=
  [⟨"<<e>>", "0"⟩, ⟨"E", "10"⟩, ⟨"<plus '+'>", "3"⟩]

theorem wideColumns_unaligned :
    ∃ symbols states,
      wideParser.stackBlock.resolve .empty = .stack symbols states ∧
        wideParser.symbols.length = wideParser.states.length ∧
        (wideParser.stackBlock.resolve .empty).misfit? = none ∧
        HasColumns symbols states wideColumns ∧
        ¬ ∀ place < wideColumns.length,
          stateOffset symbols states place = symbolOffset symbols place := by
  have paired : wideParser.symbols.length = wideParser.states.length := rfl
  have printable : (wideParser.stackBlock.resolve .empty).misfit? = none := rfl
  have has :
      HasColumns (wideParser.symbols.reverse.map Store.empty.resolveSymbol)
        (wideParser.states.reverse.map Store.empty.resolve) wideColumns :=
    ⟨rfl, rfl⟩
  refine ⟨_, _, rfl, paired, printable, has, ?_⟩
  intro aligned
  have narrow :=
    ((columns_aligned_iff rfl paired printable).2 wideColumns has).2.2.1.mp aligned
  revert narrow
  decide

end ShiftReduce.TraceBlock
