import Mathlib
import ShiftReduce.Grammar.Single
import ShiftReduce.Proofs.Run.Tandem

namespace ShiftReduce

/-!
# One token of lookahead

A parser takes notice of the kind of one token at a time.  Two runs with one table on
inputs whose kinds agree up to some token do the same until that token is shifted, and if
one of them ends before, so does the other (`Run.one_token_lookahead`).  What the tokens
carry, what they are besides their kinds, and all that follows make no difference.
-/

namespace Mask

/-- Tokens of the same kinds cannot be told apart with all else disregarded. -/
theorem allButKinds_hide
    {tokens others : List Token}
    (kinds : others.map Token.kind = tokens.map Token.kind) :
    others.map allButKinds.hide = tokens.map allButKinds.hide := by
  have ofKinds := congrArg (List.map Token.ofKind) kinds
  rw [List.map_map, List.map_map] at ofKinds
  exact ofKinds

end Mask

namespace Run

variable
  {ω ψ : Type}
  {deliver : Deliver ω}
  {other : Deliver ψ}
  {table : Table}
  {input otherInput : List Token}
  {start frame : Frame ω}
  {otherFrame : Frame ψ}

/-- A run prints no trace, and no callback makes it do so. -/
structure StaysQuiet
    (deliver : Deliver ω)
    (table : Table)
    (start : Frame ω) :
    Prop where
  initially : start.parser.verbose = false
  stays :
    ∀ name event moment,
      Callback deliver (.table table) start name event moment →
        moment.parser.verbose = false →
          (frameAfter (deliver name event) moment).parser.verbose = false

namespace StaysQuiet

/-- The parser is quiet throughout the run. -/
theorem passes
    (quiet : StaysQuiet deliver table start)
    (passes : Passes deliver (.table table) start frame) :
    frame.parser.verbose = false := by
  refine passes.relates
    (fun earlier later =>
      earlier.parser.verbose = false → later.parser.verbose = false)
    (fun _ silent => silent)
    (fun first second silent => second (first silent))
    ?_ ?_ quiet.stays quiet.initially
  · intro before after prints silent
    rw [prints.parser]
    exact silent
  · intro told decision parser committed silent
    exact (Parser.commit_keeps committed).verbose.trans silent

/-- Nothing can go wrong with showing what is never shown. -/
theorem showsFreely
    (quiet : StaysQuiet deliver table start) :
    ShowsFreely deliver table start where
  selections := by
    intro before token rest selection reaches _ _
    refine ⟨before, ?_⟩
    rw [printSelection_eq, quiet.passes (.reached reaches)]
    rfl
  outcomes := by
    intro before decision shown told parser reaches decides notified committed
    refine ⟨{ told with parser := parser }, ?_⟩
    rw [printStack_eq, (Parser.commit_keeps committed).verbose,
      quiet.passes (.told reaches decides notified)]
    rfl

end StaysQuiet

/--
A parser is about to read tokens, and prints no trace; its observers keep it quiet, and
keep what the tokens carry plain.
-/
structure ReadsQuietly
    (deliver : Deliver ω)
    (table : Table)
    (input : List Token)
    (frame : Frame ω) :
    Prop extends Reads deliver table input frame where
  quiet : StaysQuiet deliver table frame.begun
  payloads : PayloadsStay deliver table frame.begun input

namespace ReadsQuietly

theorem steady
    (reads : ReadsQuietly deliver table input frame) :
    Steady deliver table frame.begun input :=
  reads.unobtrusive.steady reads.payloads reads.plain reads.quiet.showsFreely

/-- Two such parsers run in tandem, with nothing made of tokens but their kinds. -/
theorem tandem
    (reads : ReadsQuietly deliver table input frame)
    (otherReads : ReadsQuietly other table otherInput otherFrame)
    (proper : table.HasProperHeads)
    (look : table.SameLook frame.store otherFrame.store) :
    Tandem .allButKinds deliver other table frame.begun otherFrame.begun input
      otherInput where
  proper := proper
  first := reads.steady
  second := otherReads.steady
  look := look
  masked := by
    intro reached otherReached _ _ token _ otherToken _ same
    rw [Store.resolve_token, Store.resolve_token]
    exact congrArg Value.token same

end ReadsQuietly

/--
A run takes notice of nothing but the kinds of tokens, one at a time.

Two parsers with one table read inputs whose kinds agree up to the token at a position.
They carry out the same actions in the same states until that token is shifted, where
tokens are compared by their kinds.  If one of them stops with no more consumed than what
comes before that token, then both have carried out the same actions, and they stop with
the same states, the same kinds of symbols, the same tokens consumed, and the same result
or the same fault in the same state with the same kinds expected.  On inputs of the same
kinds throughout, all of this holds of the complete runs.
-/
theorem one_token_lookahead
    (proper : table.HasProperHeads)
    (reads : ReadsQuietly deliver table input frame)
    (otherReads : ReadsQuietly other table otherInput otherFrame)
    (look : table.SameLook frame.store otherFrame.store)
    {last : Nat}
    (inside : last < input.length)
    (otherInside : last < otherInput.length)
    (kinds :
      (otherInput.take (last + 1)).map Token.kind =
        (input.take (last + 1)).map Token.kind)
    (granted : Nat) :
    ((Decision.throughShift (last + 1)
          (actions other (.table table) granted otherFrame.begun)).map
        Mask.allButKinds.decision =
      (Decision.throughShift (last + 1)
          (actions deliver (.table table) granted frame.begun)).map
        Mask.allButKinds.decision) ∧
    (input.length ≤
          last +
            (frameAfter (Run.start deliver granted)
              frame).parser.pending.length ∨
        otherInput.length ≤
          last +
            (frameAfter (Run.start other granted)
              otherFrame).parser.pending.length →
      (actions other (.table table) granted otherFrame.begun).map
          Mask.allButKinds.decision =
        (actions deliver (.table table) granted frame.begun).map
          Mask.allButKinds.decision ∧
      EndAlike .allButKinds ((input.drop (last + 1)).map .token)
        ((otherInput.drop (last + 1)).map .token) (Run.start deliver granted)
        (Run.start other granted) frame otherFrame) ∧
    (otherInput.map Token.kind = input.map Token.kind →
      (actions other (.table table) granted otherFrame.begun).map
          Mask.allButKinds.decision =
        (actions deliver (.table table) granted frame.begun).map
          Mask.allButKinds.decision ∧
      EndAlike .allButKinds [] [] (Run.start deliver granted)
        (Run.start other granted) frame otherFrame) := by
  have tandem := reads.tandem otherReads proper look
  have begins := reads.begins granted
  have otherBegins := otherReads.begins granted
  have abreast :=
    reads.toReads.abreast otherReads.toReads inside
      (Mask.allButKinds_hide kinds)
  refine ⟨?_, ?_, ?_⟩
  · exact tandem.drives_until abreast granted
  · intro stops
    have same :
        frameAfter (Run.start deliver granted) frame =
          frameAfter (drive deliver (.table table) granted) frame.begun := by
      simp only [frameAfter, begins]
    have otherSame :
        frameAfter (Run.start other granted) otherFrame =
          frameAfter (drive other (.table table) granted)
            otherFrame.begun := by
      simp only [frameAfter, otherBegins]
    rw [same, otherSame] at stops
    obtain ⟨acts, ends⟩ :=
      tandem.drives abreast granted (by
        simp only [List.length_map, List.length_drop]
        omega)
    exact ⟨acts, ends.congr begins otherBegins⟩
  · intro allKinds
    have sameLength : otherInput.length = input.length := by
      simpa using congrArg List.length allKinds
    have abreast :=
      reads.toReads.abreast otherReads.toReads (Nat.le_refl input.length)
        (Mask.allButKinds_hide (by
          rw [List.take_length, ← sameLength, List.take_length]
          exact allKinds))
    rw [List.drop_length, ← sameLength, List.drop_length] at abreast
    obtain ⟨acts, ends⟩ :=
      tandem.drives abreast granted (.inr (.inr ⟨rfl, rfl⟩))
    exact ⟨acts, ends.congr begins otherBegins⟩

section Letters

open Grammar

/-- A quiet parser about to read a letter with a payload, and whatever follows its end. -/
def carrying
    (payload : Value)
    (rest : List Token) :
    Frame (List Event) :=
  (Frame.fresh Single.table
    ((.plain "a" payload :: .endOfInput :: rest).map .token) ["log"] []).quiet

theorem carrying_readsQuietly
    {payload : Value}
    {rest : List Token}
    (plain : payload.isConstant = true)
    (plainRest : ∀ token ∈ rest, token.value.isConstant = true) :
    ReadsQuietly (logging "log") Single.table
      (.plain "a" payload :: .endOfInput :: rest) (carrying payload rest) where
  loaded := ⟨rfl, rfl, rfl, rfl⟩
  unused := rfl
  unaccepted := rfl
  plain := by
    intro token member
    apply Store.isPlain_of_constant
    rcases List.mem_cons.mp member with rfl | later
    · exact plain
    · rcases List.mem_cons.mp later with rfl | last
      · rfl
      · exact plainRest token last
  quiet := by
    refine ⟨rfl, ?_⟩
    intro name event moment callback silent
    obtain ⟨world, same⟩ :=
      logging_confined "log" _ _ name event moment callback
    rw [same]
    exact silent
  unobtrusive :=
    (logging_confined "log" _ _).unobtrusive
      (logging_notificationsEnd "log" _ _ (by
        intro listener member
        exact ⟨"log", List.mem_singleton.mp member⟩))
  payloads := (logging_confined "log" _ _).payloadsStay _

/-- Two letters that carry different things are read alike, whatever follows their end. -/
theorem one_token_lookahead_letters :
    ReadsQuietly (logging "log") Single.table
        [.plain "a" (.int 1), .endOfInput] (carrying (.int 1) []) ∧
      ReadsQuietly (logging "log") Single.table
        [.plain "a" (.text "x"), .endOfInput, .ofKind "b"]
        (carrying (.text "x") [.ofKind "b"]) ∧
      (actions (logging "log") (.table Single.table) 3
          (carrying (.text "x") [.ofKind "b"]).begun).map
            Mask.allButKinds.decision =
        [.shift (.int 0) (.token (.ofKind "a")) (.int 1),
          .reduce (.int 1) Single.letter (.int 2),
          .accept (.int 2)] ∧
      EndAlike .allButKinds [] [.token (.ofKind "b")]
        (Run.start (logging "log") 3) (Run.start (logging "log") 3)
        (carrying (.int 1) []) (carrying (.text "x") [.ofKind "b"]) := by
  have reads :
      ReadsQuietly (logging "log") Single.table
        [.plain "a" (.int 1), .endOfInput] (carrying (.int 1) []) :=
    carrying_readsQuietly rfl fun _ member => nomatch member
  have otherReads :
      ReadsQuietly (logging "log") Single.table
        [.plain "a" (.text "x"), .endOfInput, .ofKind "b"]
        (carrying (.text "x") [.ofKind "b"]) := by
    apply carrying_readsQuietly rfl
    intro token member
    rw [List.mem_singleton.mp member]
    rfl
  have acts :
      (actions (logging "log") (.table Single.table) 3
          (carrying (.int 1) []).begun).map Mask.allButKinds.decision =
        [.shift (.int 0) (.token (.ofKind "a")) (.int 1),
          .reduce (.int 1) Single.letter (.int 2),
          .accept (.int 2)] := by
    cbv
  have remains :
      (frameAfter (Run.start (logging "log") 3)
        (carrying (.int 1) [])).parser.pending = [.token .endOfInput] := by
    cbv
  obtain ⟨_, stops, _⟩ :=
    one_token_lookahead (by decide) reads otherReads (.refl Single.table _)
      (by decide : 1 < 2) (by decide : 1 < 3) rfl 3
  obtain ⟨same, ends⟩ := stops (.inl (by rw [remains]; decide))
  exact ⟨reads, otherReads, same.trans acts, ends⟩

end Letters

end Run

end ShiftReduce
