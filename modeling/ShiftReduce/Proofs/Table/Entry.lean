import ShiftReduce.Table.Lookup

namespace ShiftReduce

/-!
# Where the answers of a table come from

Whatever a table answers is the entry of one of its cells, unless it has none for
the question: then it is the error action, or no value.
-/

namespace Cell

/-- Whatever is found in cells is the entry of one of them. -/
theorem find?_mem
    {store : Store}
    {cells : List Cell}
    {state column entry : Value}
    (found : find? store cells state column = .ok (some entry)) :
    ∃ cell ∈ cells, cell.entry = entry := by
  unfold find? at found
  cases key : store.hashKey (pair state column) with
  | error cause =>
      simp [key, bind, Except.bind] at found
  | ok hash =>
      simp only [key, bind, Except.bind] at found
      clear key
      induction cells with
      | nil =>
          simp [List.findM?, pure, Except.pure] at found
      | cons cell rest inductionHypothesis =>
          cases answer : answers store state column cell with
          | error cause =>
              simp [List.findM?, answer, bind, Except.bind] at found
          | ok matching =>
              cases matching with
              | true =>
                  simp only [List.findM?, answer, bind, Except.bind, pure,
                    Except.pure, Option.map_some, Except.ok.injEq,
                    Option.some.injEq] at found
                  exact ⟨cell, List.mem_cons_self, found⟩
              | false =>
                  simp only [List.findM?, answer, bind, Except.bind] at found
                  obtain ⟨other, member, same⟩ := inductionHypothesis found
                  exact ⟨other, List.mem_cons_of_mem cell member, same⟩

end Cell

namespace Table

/-- An action is the entry of a cell, or the error action where there is none. -/
theorem action_mem
    {table : Table}
    {store : Store}
    {state column entry : Value}
    (answered : table.action store state column = .ok entry) :
    entry = .action (.error .direct) ∨
      ∃ cell ∈ table.actions, cell.entry = entry := by
  unfold action at answered
  cases found : Cell.find? store table.actions state column with
  | error cause =>
      simp [found, bind, Except.bind] at answered
  | ok value =>
      simp only [found, bind, Except.bind, pure, Except.pure,
        Except.ok.injEq] at answered
      cases value with
      | none =>
          exact .inl answered.symm
      | some held =>
          obtain ⟨cell, member, same⟩ := Cell.find?_mem found
          exact .inr ⟨cell, member, same.trans answered⟩

/-- A goto is the entry of a cell, or no value where there is none. -/
theorem goto_mem
    {table : Table}
    {store : Store}
    {state column entry : Value}
    (answered : table.goto store state column = .ok entry) :
    entry = .none ∨ ∃ cell ∈ table.gotos, cell.entry = entry := by
  unfold goto at answered
  cases found : Cell.find? store table.gotos state column with
  | error cause =>
      simp [found, bind, Except.bind] at answered
  | ok value =>
      simp only [found, bind, Except.bind, pure, Except.pure,
        Except.ok.injEq] at answered
      cases value with
      | none =>
          exact .inl answered.symm
      | some held =>
          obtain ⟨cell, member, same⟩ := Cell.find?_mem found
          exact .inr ⟨cell, member, same.trans answered⟩

end Table

end ShiftReduce
