import Mathlib
import ShiftReduce.Grammar.Single
import ShiftReduce.Proofs.Run.FanOut
import ShiftReduce.Proofs.Run.Tandem

namespace ShiftReduce

/-!
# Observers, symbol tables and traces leave the parse alone

A parser that shows what it does puts everything that it meets into texts in the middle of
its turns.  With a legible table (`Table.Legible`) and tokens that carry plain data, this
never comes to a misfit, so that it makes no difference whether and when the parser is
verbose.  Nor does it make a difference who observes the parse and what the symbol table
is: runs on the same tokens carry out the same actions and end in the same way
(`Run.outcome_unaffected`), as long as tokens and table go on to look the same.

They may not: a token can carry the symbol table itself, and then its refusal shows what
observers have entered (`Run.entries_show_in_refusal`).
-/

/-- An entry of a table that can be shown: an action to a plain state, or by a proper rule. -/
def Store.Presents
    (store : Store) :
    Value → Prop
  | .action (.shift _ next) => store.IsPlain next
  | .action (.reduce _ (.production production)) => production.isProper = true
  | .action (.reduce _ _) => False
  | .action _ => True
  | _ => False

namespace Store

theorem resolve_shift
    (store : Store)
    (lineage : Lineage)
    (next : Value) :
    store.resolve (.action (.shift lineage next)) =
      .action (.shift lineage (store.resolve next)) := by
  unfold resolve levels
  rw [Nat.succ_mul]
  rfl

/-- An action that can be shown is shown without a misfit. -/
theorem Presents.shown
    {store : Store}
    {carried : Action}
    (presents : store.Presents (.action carried)) :
    ∃ text, (store.resolve (.action carried)).shown = .ok text := by
  cases carried with
  | shift lineage next =>
      obtain ⟨text, shows⟩ := Value.shown_plain presents
      rw [store.resolve_shift]
      simp [Value.shown, Action.shown, shows, bind, Except.bind, pure,
        Except.pure]
  | reduce lineage rule =>
      cases rule with
      | production production =>
          have proper :
              (Value.action
                (.reduce lineage (.production production))).isProperAction =
                true :=
            presents
          exact store.shown_properAction proper
      | _ => cases presents
  | accept lineage => exact store.shown_properAction rfl
  | error lineage => exact store.shown_properAction rfl
  | unknown which => exact store.shown_properAction rfl

end Store

namespace Table

/-- A table can be shown as things stand: its entries are actions, and its states plain. -/
structure Legible
    (table : Table)
    (store : Store) :
    Prop where
  entries : ∀ cell ∈ table.actions, store.Presents cell.entry
  states : ∀ state, table.HasState state → store.IsPlain state

namespace Legible

variable
  {table : Table}
  {store other : Store}

/-- The rules that a legible table reduces by have non-terminals for heads. -/
theorem hasProperHeads
    (legible : table.Legible store) :
    table.HasProperHeads := by
  intro cell member
  have presents := legible.entries cell member
  generalize cell.entry = entry at presents
  unfold Value.hasProperHead
  split
  · rfl
  · next lineage production noHead =>
      obtain ⟨head, headed⟩ := Production.head_of_isProper presents
      rcases production with ⟨identity, _, body, index⟩
      cases headed
      exact (noHead _ _ _ _ rfl).elim
  · rfl

/-- Whatever a legible table answers with can be printed, wherever the table looks the same. -/
theorem action_fits
    {state column entry : Value}
    (legible : table.Legible store)
    (look : table.SameLook store other)
    (found : table.action other state column = .ok entry) :
    ((TraceBlock.action entry).resolve other).misfit? = none := by
  have presents : store.Presents entry := by
    rcases action_mem found with missing | ⟨cell, member, rfl⟩
    · rw [missing]
      trivial
    · exact legible.entries cell member
  cases entry with
  | action carried =>
      apply TraceBlock.action_fits_of_shown
      rw [look.answer found]
      exact presents.shown
  | _ => cases presents

/-- Stacks of states of a legible table and plain tokens can be printed. -/
theorem stack_fits
    {parser : Parser}
    {input : List Token}
    (legible : table.Legible store)
    (look : table.SameLook store other)
    (plain : ∀ token ∈ input, other.IsPlain token.value)
    (within : parser.situation.Within table input) :
    (parser.stackBlock.resolve other).misfit? = none := by
  apply TraceBlock.stack_fits
  · intro shown member
    obtain ⟨symbol, held, rfl⟩ := List.mem_map.mp member
    rw [List.mem_reverse] at held
    cases symbol with
    | token token =>
        rcases within.shifted token held with listed | rfl
        · exact Store.shown_tokenSymbol (plain token listed)
        · exact ⟨_, rfl⟩
    | nonterminal carried => exact ⟨_, rfl⟩
    | bare identity => exact ⟨_, rfl⟩
  · intro shown member
    obtain ⟨state, held, rfl⟩ := List.mem_map.mp member
    rw [List.mem_reverse] at held
    have known := within.known state held
    rw [look.states state known]
    exact Value.shown_plain (legible.states state known)

end Legible

/-- An orderly table is legible, whatever lies in the store. -/
theorem Orderly.legible
    {table : Table}
    (orderly : table.Orderly)
    (store : Store) :
    table.Legible store where
  entries := by
    intro cell member
    have proper := (orderly.actions cell member).2.2
    cases entry : cell.entry with
    | action carried =>
        rw [entry] at proper
        cases carried with
        | shift lineage next =>
            have constant : next.isConstant = true := proper
            exact store.isPlain_of_constant constant
        | reduce lineage rule =>
            cases rule with
            | production production => exact proper
            | _ => cases proper
        | _ => trivial
    | _ =>
        rw [entry] at proper
        cases proper
  states _ known := store.isPlain_of_constant (orderly.hasState_constant known)

end Table

namespace Run

variable
  {ω ψ : Type}
  {deliver : Deliver ω}
  {other : Deliver ψ}
  {table : Table}
  {input : List Token}
  {start frame : Frame ω}
  {otherFrame : Frame ψ}

/-- No callback of a run changes what tokens carry, as it looks. -/
def PayloadsKeep
    (deliver : Deliver ω)
    (table : Table)
    (start : Frame ω)
    (tokens : List Token) :
    Prop :=
  ∀ name event moment,
    Callback deliver (.table table) start name event moment →
      ∀ token ∈ tokens,
        (frameAfter (deliver name event) moment).store.resolve token.value =
          moment.store.resolve token.value

namespace PayloadsKeep

theorem stay
    (keep : PayloadsKeep deliver table start input) :
    PayloadsStay deliver table start input := by
  intro name event moment callback token member plain
  unfold Store.IsPlain
  rw [keep name event moment callback token member]
  exact plain

/-- What tokens carry looks the same throughout a run. -/
theorem passes
    (keep : PayloadsKeep deliver table start input)
    (passes : Passes deliver (.table table) start frame) :
    ∀ token ∈ input,
      frame.store.resolve token.value = start.store.resolve token.value := by
  refine passes.relates
    (fun earlier later =>
      ∀ token ∈ input,
        later.store.resolve token.value = earlier.store.resolve token.value)
    (fun _ _ _ => rfl)
    (fun first second token member =>
      (second token member).trans (first token member))
    ?_ (fun _ _ _ => rfl) keep
  intro before after prints token _
  rw [prints.store]

end PayloadsKeep

/--
A parser is about to read tokens, with observers that leave the parse, the table and what
the tokens carry as they are.  They may do anything else.
-/
structure ReadsUndisturbed
    (deliver : Deliver ω)
    (table : Table)
    (input : List Token)
    (frame : Frame ω) :
    Prop extends Reads deliver table input frame where
  payloads : PayloadsKeep deliver table frame.begun input

namespace ReadsUndisturbed

/-- With a legible table, showing what the parser does never fails. -/
theorem showsFreely
    {store : Store}
    (reads : ReadsUndisturbed deliver table input frame)
    (legible : table.Legible store)
    (look : table.SameLook store frame.store) :
    ShowsFreely deliver table frame.begun where
  selections := by
    intro before token rest selection reaches queue selected
    obtain ⟨_, kind, sameTable, _, _, _, sameToken, found⟩ :=
      Parser.select_inversion selected
    cases sameTable
    have kept := reads.unobtrusive.passes_look (.reached reaches)
    have plain :=
      reads.payloads.stay.passes_plain reads.plain (.reached reaches)
    have within :=
      reads.unobtrusive.undisturbed.reaches_within reads.loaded.within reaches
    have member : token ∈ before.situation.pending := by
      change token ∈ before.parser.pending
      rw [queue]
      exact List.mem_cons_self
    obtain ⟨carried, listed, rfl⟩ := within.tokens token member
    obtain ⟨shown, printed, _⟩ :=
      printSelection_ok (legible.stack_fits (look.trans kept) plain within)
        (by
          rw [sameToken]
          exact TraceBlock.lookahead_fits
            (Store.shown_token (plain carried listed)))
        (legible.action_fits (look.trans kept) found)
    exact ⟨shown, printed⟩
  outcomes := by
    intro before decision shown told parser reaches decides notified committed
    have undisturbed := reads.unobtrusive.undisturbed
    have passes :
        Passes deliver (.table table) frame.begun told :=
      .told reaches decides notified
    have kept := reads.unobtrusive.passes_look passes
    have plain := reads.payloads.stay.passes_plain reads.plain passes
    have spares := undisturbed.notify_spares reaches decides
    rw [frameAfter_of_ok notified] at spares
    have within :=
      (Parser.commit_moves decides.sanctioned spares.situation
        committed).within decides.sanctioned
        (undisturbed.reaches_within reads.loaded.within reaches)
    obtain ⟨after, printed, _⟩ :
        ∃ after,
          printStack { told with parser := parser } = .ok () after ∧
            Frame.PrintsTo { told with parser := parser } after :=
      printStack_ok (legible.stack_fits (look.trans kept) plain within)
    exact ⟨after, printed⟩

/-- Two such parsers run in tandem, with nothing about their tokens disregarded. -/
theorem tandem
    (reads : ReadsUndisturbed deliver table input frame)
    (otherReads : ReadsUndisturbed other table input otherFrame)
    (legible : table.Legible frame.store)
    (look : table.SameLook frame.store otherFrame.store)
    (payloads :
      ∀ token ∈ input,
        otherFrame.store.resolve token.value =
          frame.store.resolve token.value) :
    Tandem .nothing deliver other table frame.begun otherFrame.begun input
      input where
  proper := legible.hasProperHeads
  first :=
    reads.unobtrusive.steady reads.payloads.stay reads.plain
      (reads.showsFreely legible (.refl table frame.store))
  second :=
    otherReads.unobtrusive.steady otherReads.payloads.stay otherReads.plain
      (otherReads.showsFreely legible look)
  look := look
  masked := by
    intro reached otherReached reaches otherReaches token member otherToken _
      same
    cases same
    have kept := reads.payloads.passes (.reached reaches) token member
    have otherKept :=
      otherReads.payloads.passes (.reached otherReaches) token member
    have sameLook :
        otherReached.store.resolve token.value =
          reached.store.resolve token.value :=
      otherKept.trans ((payloads token member).trans kept.symm)
    rw [Store.resolve_token, Store.resolve_token, sameLook]

end ReadsUndisturbed

/--
Who observes a parse, what its symbol table is and whether it is verbose makes no difference.

Two parsers read the same tokens with the same legible table.  They may have different
observers and symbol tables, and be verbose or not; their observers return and leave the
parse alone, and may register others, change the symbol table and make the parser verbose
or quiet.  As long as nothing of this changes what the table or a token looks like, both
carry out the same actions, halt with the same fault or with none, and end with the same
stacks, the same queue and the same mark of acceptance.
-/
theorem outcome_unaffected
    (legible : table.Legible frame.store)
    (reads : ReadsUndisturbed deliver table input frame)
    (otherReads : ReadsUndisturbed other table input otherFrame)
    (look : table.SameLook frame.store otherFrame.store)
    (payloads :
      ∀ token ∈ input,
        otherFrame.store.resolve token.value =
          frame.store.resolve token.value)
    (granted : Nat) :
    actions other (.table table) granted otherFrame.begun =
        actions deliver (.table table) granted frame.begun ∧
      halt? (Run.start other granted) otherFrame =
        halt? (Run.start deliver granted) frame ∧
      (frameAfter (Run.start other granted) otherFrame).situation =
        (frameAfter (Run.start deliver granted) frame).situation ∧
      (frameAfter (Run.start other granted) otherFrame).parser.accepted =
        (frameAfter (Run.start deliver granted) frame).parser.accepted := by
  have tandem := reads.tandem otherReads legible look payloads
  have abreast :=
    reads.toReads.abreast otherReads.toReads (Nat.le_refl input.length)
      (rfl : (input.take input.length).map Mask.nothing.hide = _)
  rw [List.drop_length] at abreast
  obtain ⟨acts, ends⟩ :=
    tandem.drives abreast granted (.inr (.inr ⟨rfl, rfl⟩))
  have alike :=
    ends.congr (reads.begins granted) (otherReads.begins granted)
  obtain ⟨_, twins⟩ := alike.twins
  refine ⟨?_, ?_, twins.eq, alike.accepted⟩
  · simpa using acts
  · simpa using alike.halt

section Meddling

open Grammar

/-- The store with a name entered in a symbol table, if it is one that can be changed. -/
def entered
    (store : Store)
    (name : String) :
    Value → Store
  | .shared _ place =>
      match (store.contentAt place).assignItem store (.text name) (.int 1) with
      | .ok content => store.replace place content
      | .error _ => store
  | _ => store

/--
Observers that enter a name in the symbol table, register once more, and make the parser
verbose if it is quiet and quiet if it is verbose.
-/
def meddling : Deliver ω :=
  fun name _ =>
    modify fun frame =>
      { frame with
        parser :=
          { frame.parser with
            registry := frame.parser.registry.add (.observer name)
            verbose := !frame.parser.verbose }
        store := entered frame.store "x" frame.parser.registry.symbolTable }

theorem meddling_undisturbed
    (table : Value)
    (start : Frame ω) :
    Undisturbed meddling table start :=
  fun _ _ _ _ => ⟨rfl, rfl⟩

theorem meddling_notificationsEnd
    {table : Value}
    {start : Frame ω}
    {names : List String}
    (observers : start.parser.registry.listeners = names.map .observer) :
    NotificationsEnd meddling table start := by
  have enlisting : Enlisting meddling table start := by
    refine ⟨?_, fun name event moment _ => ⟨_, rfl, [name], rfl⟩⟩
    intro listener member
    rw [observers] at member
    obtain ⟨name, _, rfl⟩ := List.mem_map.mp member
    exact ⟨name, rfl⟩
  exact enlisting.notificationsEnd

theorem single_orderly :
    Single.table.Orderly where
  initial := rfl
  actions := by decide
  gotos := by decide
  diagnosis := rfl

/-- The table of one letter mentions nothing that lies in a store. -/
theorem single_sameLook
    (first second : Store) :
    Single.table.SameLook first second := by
  refine single_orderly.sameLook ?_ first second
  intro cell member fill
  simp only [Single.table, List.mem_cons, List.not_mem_nil, or_false] at member
  rcases member with rfl | rfl | rfl <;> rfl

/-- A letter, and another one that is no sentence, with a payload. -/
def letters
    (payload : Value) :
    List Token :=
  [.ofKind "a", .plain "b" payload]

theorem letters_constant
    {payload : Value}
    (constant : payload.isConstant = true) :
    ∀ token ∈ letters payload, token.value.isConstant = true := by
  intro token member
  simp only [letters, List.mem_cons, List.not_mem_nil, or_false] at member
  rcases member with rfl | rfl
  · rfl
  · exact constant

/-- A verbose parser about to read two letters, with a symbol table that lies in the store. -/
def entering
    (observers : List String)
    (payload : Value) :
    Frame Unit :=
  let frame :=
    Frame.fresh Single.table ((letters payload).map .token) observers ()
  { frame with
    parser :=
      { frame.parser with
        registry := ⟨.shared .dict 0, observers.map .observer⟩ }
    store := ⟨#[.dict []]⟩ }

/-- A constant payload is out of the reach of meddling observers. -/
theorem meddling_readsUndisturbed
    {payload : Value}
    {frame : Frame ω}
    {names : List String}
    (constant : payload.isConstant = true)
    (loaded : frame.parser.Loaded Single.table ((letters payload).map .token))
    (unused : frame.parser.ran = false)
    (unaccepted : frame.parser.accepted = false)
    (observers : frame.parser.registry.listeners = names.map .observer) :
    ReadsUndisturbed meddling Single.table (letters payload) frame := by
  have constants := letters_constant constant
  refine ⟨⟨loaded, unused, unaccepted, ?_, ?_⟩, ?_⟩
  · intro token member
    exact frame.store.isPlain_of_constant (constants token member)
  · exact ⟨meddling_undisturbed _ _, meddling_notificationsEnd observers,
      fun _ _ _ _ => single_sameLook _ _⟩
  · intro name event moment _ token member
    rw [Store.resolve_constant _ (constants token member),
      Store.resolve_constant _ (constants token member)]

/-- A quiet parser about to read two letters that nobody observes, without a symbol table. -/
def unobserved
    (payload : Value) :
    Frame Unit :=
  (Frame.fresh Single.table ((letters payload).map .token) [] ()).quiet

/-- A letter is refused in the same way whether or not observers meddle. -/
theorem outcome_unaffected_letters :
    ReadsUndisturbed meddling Single.table (letters (.int 5))
        (unobserved (.int 5)) ∧
      ReadsUndisturbed meddling Single.table (letters (.int 5))
        (entering ["guest"] (.int 5)) ∧
      Single.table.Legible (unobserved (.int 5)).store ∧
      halt? (Run.start meddling 2) (entering ["guest"] (.int 5)) =
        some
          (.fault
            (.unexpectedToken (.int 1) (.token (.plain "b" (.int 5)))
              [.text "$"])) := by
  have reads :
      ReadsUndisturbed meddling Single.table (letters (.int 5))
        (unobserved (.int 5)) :=
    meddling_readsUndisturbed rfl ⟨rfl, rfl, rfl, rfl⟩ rfl rfl
      (rfl : _ = [].map _)
  have otherReads :
      ReadsUndisturbed meddling Single.table (letters (.int 5))
        (entering ["guest"] (.int 5)) :=
    meddling_readsUndisturbed rfl ⟨rfl, rfl, rfl, rfl⟩ rfl rfl
      (rfl : _ = ["guest"].map _)
  have refused :
      halt? (Run.start meddling 2) (unobserved (.int 5)) =
        some
          (.fault
            (.unexpectedToken (.int 1) (.token (.plain "b" (.int 5)))
              [.text "$"])) := by
    cbv
  have payloads :
      ∀ token ∈ letters (.int 5),
        (entering ["guest"] (.int 5)).store.resolve token.value =
          (unobserved (.int 5)).store.resolve token.value := by
    intro token member
    have constant := letters_constant rfl token member
    rw [Store.resolve_constant _ constant, Store.resolve_constant _ constant]
  obtain ⟨_, same, _⟩ :=
    outcome_unaffected (single_orderly.legible _) reads otherReads
      (single_sameLook _ _) payloads 2
  exact ⟨reads, otherReads, single_orderly.legible _, same.trans refused⟩

/--
Where a token carries the symbol table, observers that do nothing but what is theirs to do
change the message that the token is refused with.
-/
theorem entries_show_in_refusal :
    Single.table.Legible (entering [] (.shared .dict 0)).store ∧
      (∀ token ∈ letters (.shared .dict 0),
        (entering [] (.shared .dict 0)).store.IsPlain token.value) ∧
      Undisturbed meddling (.table Single.table)
        (entering ["guest"] (.shared .dict 0)).begun ∧
      NotificationsEnd meddling (.table Single.table)
        (entering ["guest"] (.shared .dict 0)).begun ∧
      ∃ cause otherCause,
        halt? (Run.start meddling 2) (entering [] (.shared .dict 0)) =
            some (.fault cause) ∧
          halt? (Run.start meddling 2)
              (entering ["guest"] (.shared .dict 0)) =
            some (.fault otherCause) ∧
          cause.wording = .ok "Unexpected token: <b \x7b\x7d> in state 1" ∧
          otherCause.wording =
            .ok "Unexpected token: <b \x7b'x': 1\x7d> in state 1" := by
  refine ⟨single_orderly.legible _, ?_, meddling_undisturbed _ _,
    meddling_notificationsEnd (rfl : _ = ["guest"].map _), ?_⟩
  · intro token member
    simp only [letters, List.mem_cons, List.not_mem_nil, or_false] at member
    rcases member with rfl | rfl <;> rfl
  · refine
      ⟨.unexpectedToken (.int 1) (.token (.plain "b" (.dict []))) [.text "$"],
        .unexpectedToken (.int 1)
          (.token (.plain "b" (.dict [(.text "x", .int 1)]))) [.text "$"],
        ?_, ?_, ?_, ?_⟩
    · cbv
    · cbv
    · cbv
    · cbv

end Meddling

end Run

end ShiftReduce
