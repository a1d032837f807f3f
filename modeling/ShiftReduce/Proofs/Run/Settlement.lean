import ShiftReduce.Grammar.Single
import ShiftReduce.Proofs.Run.Confined

namespace ShiftReduce

/-!
# What becomes of the actions that observers hear of

Once all observers have been told of an action, it is carried out to its end, unless it
is a reduction by a rule whose head is no non-terminal.  Such a reduction takes the body
of the rule off the stacks, and only then finds that it has nothing to put in its place.

So every run either leaves the parser where the actions that were heard of lead to
(`Run.Settled`), or with the last reduction broken off in the middle (`Run.Severed`), and
the heads of the rules decide between the two (`Run.settled_iff_heads_fit`).
-/

namespace Situation

/-- Sanctioned actions lead from a first situation to another, each carried out to its end. -/
inductive Carries
    (table : Table)
    (first : Situation) :
    List Decision → Situation → Prop where
  | none :
      Carries table first [] first
  | more
      {decisions : List Decision}
      {decision : Decision}
      {before after : Situation}
      {store : Store}
      (carries : Carries table first decisions before)
      (sanctioned : before.Sanctions table store decision)
      (moves : Moves decision before after) :
      Carries table first (decisions ++ [decision]) after

/-- All that is still to come are tokens. -/
def HoldsTokens
    (situation : Situation) :
    Prop :=
  ∀ value ∈ situation.pending, ∃ token, value = .token token

/-- No action adds anything to the queue. -/
theorem Moves.holdsTokens
    {decision : Decision}
    {before after : Situation}
    (moves : Moves decision before after)
    (tokens : before.HoldsTokens) :
    after.HoldsTokens := by
  cases moves with
  | shift =>
      intro value member
      exact tokens value (List.mem_cons_of_mem _ member)
  | reduce headed => exact tokens
  | accept => exact tokens

namespace Carries

variable
  {table : Table}
  {first last : Situation}
  {decisions : List Decision}

theorem holdsTokens
    (carries : Carries table first decisions last)
    (initially : first.HoldsTokens) :
    last.HoldsTokens := by
  induction carries with
  | none => exact initially
  | more carries sanctioned moves inductionHypothesis =>
      exact moves.holdsTokens inductionHypothesis

/-- Whatever was reduced by to the end has a non-terminal for a head. -/
theorem headed
    {state next : Value}
    {production : Production}
    (carries : Carries table first decisions last)
    (member : .reduce state production next ∈ decisions) :
    ∃ head, production.head = .nonterminal head := by
  induction carries with
  | none => cases member
  | more carries sanctioned moves inductionHypothesis =>
      rcases List.mem_append.mp member with earlier | now
      · exact inductionHypothesis earlier
      · cases List.mem_singleton.mp now
        cases moves with
        | reduce headed => exact ⟨_, headed⟩

end Carries

end Situation

/-- Every rule among events has a non-terminal for a head. -/
def Event.HeadsFit
    (events : List Event) :
    Prop :=
  ∀ state production,
    .reduce state (.production production) ∈ events →
      ∃ head, production.head = .nonterminal head

namespace Run

/-- All actions that were heard of have been carried out. -/
def Settled
    (table : Table)
    (first : Situation)
    (heard : List Event)
    (last : Situation) :
    Prop :=
  ∃ decisions,
    heard = decisions.map Decision.event ∧
      Situation.Carries table first decisions last

/--
The last action that was heard of is a reduction that was broken off: the body of the
rule is off the stacks, and no head has been put there.
-/
def Severed
    (table : Table)
    (first : Situation)
    (heard : List Event)
    (last : Situation) :
    Prop :=
  ∃ decisions before store state production next,
    heard =
        decisions.map Decision.event ++
          [.reduce state (.production production)] ∧
      Situation.Carries table first decisions before ∧
      before.Sanctions table store (.reduce state production next) ∧
      (∀ head, production.head ≠ .nonterminal head) ∧
      last =
        ⟨before.states.drop production.length,
          before.symbols.drop production.length,
          before.pending⟩

section Events

variable
  {table : Table}
  {first last : Situation}
  {heard : List Event}

theorem Settled.headsFit
    (settled : Settled table first heard last) :
    Event.HeadsFit heard := by
  obtain ⟨decisions, rfl, carries⟩ := settled
  intro state production member
  obtain ⟨decision, listed, tells⟩ := List.mem_map.mp member
  cases decision with
  | shift => cases tells
  | accept => cases tells
  | reduce reducing reduced next =>
      cases tells
      exact carries.headed listed

theorem Severed.not_headsFit
    (severed : Severed table first heard last) :
    ¬ Event.HeadsFit heard := by
  obtain ⟨_, _, _, state, production, _, rfl, _, _, noHead, _⟩ := severed
  intro fits
  obtain ⟨head, headed⟩ :=
    fits state production (List.mem_append_right _ List.mem_cons_self)
  exact noHead head headed

end Events

variable
  {ω : Type}
  {deliver : Deliver ω}
  {table : Table}
  {start : Frame ω}
  {observer : String}
  {heard : ω → List Event}

/-- With an action carried out, all that were heard of still are. -/
theorem Settled.performs
    {first : Situation}
    {before after : Frame ω}
    {decision : Decision}
    (settled : Settled table first (heard before.world) before.situation)
    (undisturbed : Undisturbed deliver (.table table) start)
    (records :
      Records deliver (.table table) start observer (fun event => [event])
        heard)
    (reaches : Reaches deliver (.table table) start before)
    (performs : Performs deliver (.table table) before decision after) :
    Settled table first (heard after.world) after.situation := by
  obtain ⟨decisions, heardAre, carries⟩ := settled
  obtain ⟨sanctioned, moved⟩ := undisturbed.moves reaches performs
  refine ⟨decisions ++ [decision], ?_, carries.more sanctioned moved⟩
  rw [records.performs reaches performs, heardAre, List.map_append]
  rfl

/-- Where an action breaks off, it is a reduction without a head. -/
theorem Settled.severed
    {first : Situation}
    {before shown told : Frame ω}
    {decision : Decision}
    {cause : Fault}
    {parser : Parser}
    (settled : Settled table first (heard before.world) before.situation)
    (tokens : first.HoldsTokens)
    (undisturbed : Undisturbed deliver (.table table) start)
    (records :
      Records deliver (.table table) start observer (fun event => [event])
        heard)
    (reaches : Reaches deliver (.table table) start before)
    (decides : Decides (.table table) before decision shown)
    (notified : notify deliver decision.event shown = .ok () told)
    (broken : Parser.commit decision told.parser = .error cause parser) :
    Severed table first (heard told.world) parser.situation := by
  obtain ⟨decisions, heardAre, carries⟩ := settled
  have sanctioned := decides.sanctioned
  have grown := records.notified reaches decides notified
  have remains := undisturbed.remains reaches decides notified broken
  generalize left : parser.situation = situation at remains
  cases remains with
  | shift noToken =>
      cases sanctioned with
      | shift top lookahead named entry =>
          obtain ⟨token, isToken⟩ :=
            carries.holdsTokens tokens _ (List.mem_of_head? lookahead)
          exact (noToken token isToken).elim
  | @reduce state next production noHead =>
      refine ⟨decisions, before.situation, before.store, state, production,
        next, ?_, carries, sanctioned, noHead, rfl⟩
      rw [grown, heardAre]
      rfl

/--
Everything that observers hear of is carried out, unless it is a reduction without a
non-terminal for a head.

On every way out of a run whose observers return, the parser is where the actions that
were heard of lead to, just if the rules among them have non-terminals for their heads.
Otherwise the last of them is a reduction that was broken off: the observers have heard
of it and the body of its rule has been popped, but nothing has been pushed.
-/
theorem settled_iff_heads_fit
    {input : List Token}
    {frame after : Frame ω}
    {granted : Nat}
    (loaded : frame.parser.Loaded table (input.map Value.token))
    (undisturbed : Undisturbed deliver (.table table) frame.begun)
    (ends : NotificationsEnd deliver (.table table) frame.begun)
    (records :
      Records deliver (.table table) frame.begun observer
        (fun event => [event]) heard)
    (unheard : heard frame.world = [])
    (ended : frameAfter (Run.start deliver granted) frame = after) :
    (Settled table frame.situation (heard after.world) after.situation ↔
      Event.HeadsFit (heard after.world)) ∧
    (Settled table frame.situation (heard after.world) after.situation ∨
      Severed table frame.situation (heard after.world) after.situation) := by
  let inside : Frame ω → Prop := fun after =>
    Settled table frame.situation (heard after.world) after.situation
  let outside : Frame ω → Prop := fun after =>
    inside after ∨
      Severed table frame.situation (heard after.world) after.situation
  have tokens : frame.situation.HoldsTokens := by
    intro value member
    change value ∈ frame.parser.pending at member
    rw [loaded.pending] at member
    obtain ⟨token, _, rfl⟩ := List.mem_map.mp member
    exact ⟨token, rfl⟩
  have initially : inside frame.begun := ⟨[], unheard, .none⟩
  have either : outside after := by
    rw [← ended]
    have refused : inside frame := initially
    apply start_exits outside granted (.inl refused)
    rw [loaded.held]
    apply drive_exits inside outside _ _ _ _ granted .start initially
    · intro before after settled prints
      left
      change
        Settled table frame.situation (heard after.world) after.situation
      rw [prints.world, prints.situation]
      exact settled
    · intro before decision after reaches settled performs
      exact settled.performs undisturbed records reaches performs
    · intro before decision shown halt after reaches _ decides interrupted
      obtain ⟨told, notified⟩ := ends before decision shown reaches decides
      rw [interrupted] at notified
      cases notified
    · intro before decision shown told cause parser reaches settled decides
        notified broken
      have severed :=
        settled.severed tokens undisturbed records reaches decides notified
          broken
      exact .inr severed
  refine ⟨⟨Settled.headsFit, ?_⟩, either⟩
  intro fits
  rcases either with settled | severed
  · exact settled
  · exact (severed.not_headsFit fits).elim

open Grammar in
/-- A run on a letter has carried out all that its observer heard of. -/
theorem letter_settled :
    ∃ after,
      Run.start (logging "log") 3
          (Frame.fresh Single.table
            ([Token.ofKind "a", .endOfInput].map .token) ["log"] []).quiet =
          .ok () after ∧
        after.world =
          [.shift (.int 0) (.token (.ofKind "a")),
            .reduce (.int 1) (.production Single.letter),
            .accept (.int 2)] ∧
        Settled Single.table
          ⟨[.int 0], [Parser.bottomMarker],
            [Token.ofKind "a", .endOfInput].map .token⟩
          after.world after.situation := by
  have loaded :
      (Frame.fresh Single.table
          ([Token.ofKind "a", .endOfInput].map .token) ["log"]
          ([] : List Event)).quiet.parser.Loaded Single.table
        ([Token.ofKind "a", .endOfInput].map .token) :=
    ⟨rfl, rfl, rfl, rfl⟩
  have settles :=
    settled_iff_heads_fit loaded
      (logging_confined "log" _ _).undisturbed
      (logging_notificationsEnd "log" _ _ (by
        intro listener member
        exact ⟨"log", List.mem_singleton.mp member⟩))
      (logging_records "log" _ _ rfl) rfl
      (rfl : frameAfter (Run.start (logging "log") 3) _ = _)
  refine ⟨_, rfl, rfl, settles.1.mpr ?_⟩
  intro state production member
  change
    _ ∈ [Event.shift _ _, .reduce _ (.production Single.letter), .accept _]
    at member
  simp only [List.mem_cons, List.not_mem_nil, or_false, reduceCtorEq, false_or,
    Event.reduce.injEq, Value.production.injEq] at member
  rw [member.2]
  exact ⟨Single.start, rfl⟩

/-- A rule with a text for a head. -/
def headlessRule : Production :=
  ⟨none, .text "S", [.text "a"], .none⟩

/-- A table that reduces by a rule with a text for a head, and has a goto for it. -/
def headlessTable : Table where
  identity := 0
  actions :=
    [⟨.int 0, .text "a", .action (.shift .direct (.int 1))⟩,
     ⟨.int 1, .text "$", .action (.reduce .direct (.production headlessRule))⟩,
     ⟨.int 2, .text "$", .action (.accept .direct)⟩]
  gotos :=
    [⟨.int 0, .text "S", .int 2⟩]
  initial := .int 0
  diagnosis := .computed

/-- A reduction by a rule without a head is heard of, and leaves its body popped. -/
theorem headless_reduction_unsettled :
    ∃ cause after,
      Run.start (logging "log") 3
          (Frame.fresh headlessTable
            ([Token.ofKind "a", .endOfInput].map .token) ["log"] []).quiet =
          .error (.fault cause) after ∧
        cause.category = .type ∧
        after.world =
          [.shift (.int 0) (.token (.ofKind "a")),
            .reduce (.int 1) (.production headlessRule)] ∧
        after.situation =
          ⟨[.int 0], [Parser.bottomMarker], [.token .endOfInput]⟩ ∧
        ¬ Settled headlessTable
            ⟨[.int 0], [Parser.bottomMarker],
              [Token.ofKind "a", .endOfInput].map .token⟩
            after.world after.situation := by
  refine ⟨_, _, rfl, rfl, rfl, rfl, ?_⟩
  intro settled
  obtain ⟨head, headed⟩ :=
    settled.headsFit (.int 1) headlessRule
      (List.mem_cons_of_mem _ List.mem_cons_self)
  cases headed

end Run

end ShiftReduce
