import ShiftReduce.Grammar.Single
import ShiftReduce.Proofs.Session.Nesting

namespace ShiftReduce

/-!
# Parsers that share a table

Parsers of one session that share a table do not disturb one another, however their runs
are nested: each comes to what it would come to alone, and the table answers all look-ups
as before (`Session.shared_table_undisturbed`).
-/

/-- What an attempt ends with is the state after the activity. -/
theorem Activity.stateAfter_of_attempt
    {σ : Type}
    {activity : Activity σ Unit}
    {answer : Option Fault}
    {state after : σ}
    (answers : activity.attempt state = .ok answer after) :
    activity.stateAfter state = after := by
  rcases activity.attempt_cases state with ⟨_, answered, _⟩ | ⟨endless, _⟩
  · rw [answered] at answers
    cases answers
    rfl
  · rw [endless] at answers
    cases answers

theorem Activity.stateAfter_of_ok
    {σ : Type}
    {activity : Activity σ Unit}
    {state after : σ}
    (ends : activity state = .ok () after) :
    activity.stateAfter state = after := by
  simp only [stateAfter, ends]

namespace Session

variable
  {receive : Receive Session}
  {conducts : String → Event → Conduct Session (String × Request)}
  {granted : Nat}
  {table : Table}
  {levels left : Nat}
  {conduct : Conduct Session (String × Request)}
  {request : String × Request}
  {session moment final : Session}

section Sharing

variable
  (courteous :
    ∀ observer symbolTable world name,
      ((Listener.observer observer).receives receive symbolTable
          world).parser name =
        world.parser name)
  (sparing :
    ∀ listener event, (conducts listener event).Respects (Leaves table))
  (respects : conduct.Respects (Leaves table))
  (orderly : Orderly receive conducts granted table levels conduct session)

include courteous sparing

section Callbacks

include orderly

/-- All callbacks of a run that comes to be asked for in order mind all parsers. -/
theorem Makes.callback_minds
    {name : String}
    (makes :
      Makes receive conducts granted levels conduct session (left + 1)
        (name, .run) moment)
    (loaded : (moment.parser name).isLoaded = true)
    (unused : (moment.parser name).ran = false)
    (listener : String)
    (event : Event)
    (heard : Frame Session)
    (callback :
      Run.Callback (attending receive conducts granted left name)
        (moment.parser name).table (moment.frame name).begun listener event
        heard) :
    Minds table (ofFrame name heard)
      (((conducts listener event).enact
          (fulfil receive conducts granted left)).stateAfter
        (ofFrame name heard)) := by
  refine enact_minds courteous sparing (sparing listener event) ?_
  intro innerLeft inner asked innerMoment makesInner
  exact
    orderly innerLeft inner asked innerMoment
      (makes.nested loaded unused callback makesInner)

end Callbacks

/--
A callback of a run that comes to its end has come to its end, and the other parsers are
minded from then to the end of the run.
-/
theorem callback_returns
    {name : String}
    {next : Option Fault → Conduct Session (String × Request)}
    (orderly :
      Orderly receive conducts granted table (levels + 1)
        (.ask (name, .run) next) session)
    (loaded : (session.parser name).isLoaded = true)
    (unused : (session.parser name).ran = false)
    {listener : String}
    {event : Event}
    {heard : Frame Session}
    (callback :
      Run.Callback (attending receive conducts granted levels name)
        (session.parser name).table (session.frame name).begun listener event
        heard)
    (ended :
      ∀ last,
        fulfil receive conducts granted (levels + 1) (name, .run) session ≠
          .error .outOfSteps last) :
    ∃ inner,
      (conducts listener event).enact (fulfil receive conducts granted levels)
          (ofFrame name heard) = .ok () inner ∧
        ∀ other,
          other ≠ name →
            MindsAt table other inner
              ((fulfil receive conducts granted (levels + 1)
                (name, .run)).stateAfter session) := by
  have unending :
      ∀ last,
        Run.drive (attending receive conducts granted levels name)
            (session.parser name).table granted (session.frame name).begun ≠
          .error .outOfSteps last := by
    intro last endless
    apply ended (ofFrame name last)
    rw [fulfil_begins loaded unused, endless]
  have proceeds :=
    callback_proceeds
      (Makes.callback_minds courteous sparing orderly .now loaded unused)
  cases returns :
      (conducts listener event).enact (fulfil receive conducts granted levels)
        (ofFrame name heard) with
  | error halt inner =>
      cases Conduct.enact_faultless _ returns
      have halts :
          attending receive conducts granted levels name listener event heard =
            .error .outOfSteps (inner.frame name) := by
        simp only [attending, duringRun, returns]
      rcases callback.halts halts granted with ⟨last, endless⟩ | endless
      · exact (unending last endless).elim
      · exact (unending _ endless).elim
  | ok result inner =>
      refine ⟨inner, rfl, ?_⟩
      rcases callback.onward (Proceeds table name) .refl .trans .prints
          (fun committed => .parses (Parser.commit_rest committed))
          (fun broken => .parses (Parser.broken_rest broken)) proceeds
          granted with
          ⟨last, endless⟩ | onward
      · exact (unending last endless).elim
      · intro other isOther
        rw [attending, frameAfter_duringRun,
          Activity.stateAfter_of_ok returns] at onward
        rw [stateAfter_fulfil_begins loaded unused]
        have resumes :
            MindsAt table other inner (ofFrame name (inner.frame name)) :=
          minds_ofFrame name inner other
        exact resumes.trans (onward.others other isOther)

include respects orderly

/-- By the time when a request is made, all parsers have been minded. -/
theorem Makes.minds
    (makes :
      Makes receive conducts granted levels conduct session left request
        moment) :
    Minds table session moment := by
  induction makes with
  | act _ inductionHypothesis =>
      obtain ⟨leaves, respectsNext⟩ := respects _
      exact leaves.minds.trans (inductionHypothesis respectsNext orderly.act)
  | now => exact .refl table _
  | later answers _ inductionHypothesis =>
      have minds := fulfil_minds courteous sparing _ _ _ _ orderly
      rw [Activity.stateAfter_of_attempt answers] at minds
      exact
        minds.trans (inductionHypothesis (respects _) (orderly.later answers))
  | within loaded unused callback _ inductionHypothesis =>
      have proceeds :=
        proceeds_to_callback
          (Makes.callback_minds courteous sparing orderly .now loaded unused)
          callback
      refine (proceeds.begun unused).trans ?_
      exact
        inductionHypothesis (sparing _ _)
          (orderly.within loaded unused callback)

/--
A request that is made in a session that comes to its end has come to its end, too, and a
parser that has begun to run by then is left alone from then on.
-/
theorem Makes.lasts
    (makes :
      Makes receive conducts granted levels conduct session left request
        moment)
    (ends :
      conduct.enact (fulfil receive conducts granted levels) session =
        .ok () final) :
    (∀ last,
      fulfil receive conducts granted left request moment ≠
        .error .outOfSteps last) ∧
      ∀ name,
        (moment.parser name).ran = false →
          (((fulfil receive conducts granted left request).stateAfter
            moment).parser name).ran = true →
            final.parser name =
              ((fulfil receive conducts granted left request).stateAfter
                moment).parser name := by
  induction makes generalizing final with
  | @act levels left change next request session moment makes
      inductionHypothesis =>
      exact inductionHypothesis (respects session).2 orderly.act ends
  | @now levels request next session =>
      rcases Activity.attempt_cases
          (fulfil receive conducts granted levels request) session with
          ⟨answer, answers, ended⟩ | ⟨endless, _⟩
      · refine ⟨ended, fun name _ ran => ?_⟩
        rw [Conduct.enact_of_answer answers] at ends
        have minds :=
          enact_minds courteous sparing (respects answer)
            (orderly.later answers)
        rw [Activity.stateAfter_of_ok ends] at minds
        exact ((minds name).kept ran).1
      · rw [Conduct.enact_of_halt endless] at ends
        cases ends
  | @later levels left first request next answer session after moment answers
      makes inductionHypothesis =>
      rw [Conduct.enact_of_answer answers] at ends
      exact inductionHypothesis (respects answer) (orderly.later answers) ends
  | @within levels left name listener event request next session moment heard
      loaded unused callback makes inductionHypothesis =>
      rcases Activity.attempt_cases
          (fulfil receive conducts granted (levels + 1) (name, .run))
          session with
          ⟨answer, answers, ended⟩ | ⟨endless, _⟩
      · have orderlyWithin := orderly.within loaded unused callback
        obtain ⟨inner, returns, minded⟩ :=
          callback_returns courteous sparing orderly loaded unused callback
            ended
        obtain ⟨innerEnded, lasts⟩ :=
          inductionHypothesis (sparing listener event) orderlyWithin returns
        refine ⟨innerEnded, fun other unusedOther ran => ?_⟩
        -- The parser at work has begun to run, so that it is not the other one.
        have isOther : other ≠ name := by
          rintro rfl
          have proceeds :=
            proceeds_to_callback
              (Makes.callback_minds courteous sparing orderly .now loaded
                unused)
              callback
          have kept :=
            (makes.minds courteous sparing (sparing listener event)
              orderlyWithin other).kept
          rw [parser_ofFrame] at kept
          have began := (proceeds.own rfl).1
          rw [(kept began).1, began] at unusedOther
          cases unusedOther
        rw [Conduct.enact_of_answer answers] at ends
        have minds :=
          enact_minds courteous sparing (respects answer)
            (orderly.later answers)
        rw [Activity.stateAfter_of_ok ends] at minds
        have toFinal := ((minded other isOther).trans (minds other)).kept
        rw [lasts other unusedOther ran] at toFinal
        exact (toFinal ran).1
      · rw [Conduct.enact_of_halt endless] at ends
        cases ends

section Begun

variable
  {name : String}
  (makes :
    Makes receive conducts granted levels conduct session (left + 1)
      (name, .run) moment)
  (loaded : (moment.parser name).isLoaded = true)
  (unused : (moment.parser name).ran = false)

omit respects
include makes loaded unused

/-- A parser whose run has begun has run in the end. -/
theorem Makes.ran :
    (((fulfil receive conducts granted (left + 1)
      (name, .run)).stateAfter moment).parser name).ran = true := by
  have proceeds :=
    proceeds_to_end
      (makes.callback_minds courteous sparing orderly loaded unused)
  rw [stateAfter_fulfil_begins loaded unused, parser_ofFrame]
  exact (proceeds.own rfl).1

/-- A run that comes to be asked for in order is left alone by all observers. -/
theorem Makes.leftAlone
    (held : (moment.parser name).table = .table table) :
    Run.LeftAlone (attending receive conducts granted left name) table
      (moment.frame name).begun := by
  have minding := makes.callback_minds courteous sparing orderly loaded unused
  refine ⟨?_, ?_⟩
  · intro listener event heard callback
    rw [← held] at callback
    have began := ((proceeds_to_callback minding callback).own rfl).1
    have kept := (minding listener event heard callback name).kept
    rw [parser_ofFrame] at kept
    obtain ⟨same, sight⟩ := kept began
    rw [attending, frameAfter_duringRun]
    exact ⟨same, sight⟩
  · intro listener event heard halt after _ halts
    cases returns :
        (conducts listener event).enact (fulfil receive conducts granted left)
          (ofFrame name heard) with
    | ok result inner =>
        simp only [attending, duringRun, returns] at halts
        cases halts
    | error cause inner =>
        simp only [attending, duringRun, returns] at halts
        cases halts
        exact Conduct.enact_faultless _ returns

end Begun

/--
Parsers that share a table do not disturb one another.

In a session of new parsers, someone and the observers of all parsers ask for set-ups and
for runs in any order and in callbacks at any depth, and take it as an answer if a run
fails.  Parsers are set up only before their runs begin, with one table for all, with any
tokens and any observers; and whatever else is done leaves the parsers alone, and what
they see of the store.

If such a session comes to its end, each run that begins in it is that of a loaded parser.
It notifies of the actions, halts with the fault or with none, and leaves the stacks, the
queue and the mark of acceptance for good that a new parser comes to which is given the
same table and the same tokens and runs alone.  Every look-up in the table is answered as
in the beginning, in the end as well as whenever something is asked for.
-/
theorem shared_table_undisturbed
    (new :
      ∀ name,
        ∃ symbolTable verbose,
          session.parser name = .create symbolTable verbose)
    (ends :
      conduct.enact (fulfil receive conducts granted levels) session =
        .ok () final) :
    (∀ left name moment,
      Makes receive conducts granted levels conduct session left (name, .run)
          moment →
        (moment.parser name).ran = false →
        (moment.parser name).isLoaded = true →
          ∃ rest tokens,
            left = rest + 1 ∧
              (moment.parser name).Loaded table tokens ∧
              Run.actions (attending receive conducts granted rest name)
                  (.table table) granted (moment.frame name).begun =
                Run.actions Run.unheard (.table table) granted
                  (Frame.alone table tokens (moment.parser name).verbose
                    moment.store).begun ∧
              Run.halt?
                  (Run.start (attending receive conducts granted rest name)
                    granted)
                  (moment.frame name) =
                Run.halt? (Run.start Run.unheard granted)
                  (Frame.alone table tokens (moment.parser name).verbose
                    moment.store) ∧
              (final.parser name).situation =
                (Run.frameAfter (Run.start Run.unheard granted)
                  (Frame.alone table tokens (moment.parser name).verbose
                    moment.store)).situation ∧
              (final.parser name).accepted =
                (Run.frameAfter (Run.start Run.unheard granted)
                  (Frame.alone table tokens (moment.parser name).verbose
                    moment.store)).parser.accepted) ∧
    (∀ later,
      (later = final ∨
        ∃ left request,
          Makes receive conducts granted levels conduct session left request
            later) →
        (∀ state kind,
          later.store.report (table.action later.store state kind) =
            session.store.report (table.action session.store state kind)) ∧
        (∀ state head,
          later.store.report (table.goto later.store state head) =
            session.store.report (table.goto session.store state head))) := by
  refine ⟨?_, ?_⟩
  · intro left name moment makes unused loaded
    obtain ⟨ended, lasts⟩ :=
      makes.lasts courteous sparing respects orderly ends
    cases left with
    | zero => exact (ended moment rfl).elim
    | succ rest =>
        have minds := makes.minds courteous sparing respects orderly name
        obtain ⟨symbolTable, verbose, isNew⟩ := new name
        have sound : (moment.parser name).Sound table := by
          apply minds.sound
          rw [isNew]
          exact .create table symbolTable verbose
        have idle := sound.idle unused
        have isLoaded := idle.loaded loaded
        have leftAlone :=
          makes.leftAlone courteous sparing orderly loaded unused isLoaded.held
        refine ⟨rest, (moment.parser name).pending, rfl, isLoaded, ?_⟩
        rcases Run.LeftAlone.starts leftAlone isLoaded unused idle.unaccepted
            sound.observers granted with
            ⟨last, endless⟩ | ⟨acts, halts, same⟩
        · apply (ended (ofFrame name last) ?_).elim
          rw [fulfil_run, asRun, endless]
        · have ran := makes.ran courteous sparing orderly loaded unused
          rw [lasts name unused ran, fulfil_run, stateAfter_asRun,
            parser_ofFrame]
          exact ⟨acts, halts, same.situation.symm, same.accepted.symm⟩
  · intro later either
    have minds : Minds table session later := by
      rcases either with rfl | ⟨left, request, makes⟩
      · rw [← Activity.stateAfter_of_ok ends]
        exact enact_minds courteous sparing respects orderly
      · exact makes.minds courteous sparing respects orderly
    have sight := (minds "").sight
    exact ⟨sight.actions, sight.gotos⟩

end Sharing

section Visit

open Grammar

/-- Ask a parser for several set-ups, whatever comes of them, and go on. -/
def settingUp
    (name : String)
    (requests : List SetUp)
    (next : Conduct Session (String × Request)) :
    Conduct Session (String × Request) :=
  requests.foldr (fun request rest => .ask (name, .setUp request) fun _ => rest)
    next

/-- Set-ups of a parser that has not begun to run are in order if the rest is. -/
theorem settingUp_orderly
    {name : String}
    {requests : List SetUp}
    {next : Conduct Session (String × Request)}
    (share : ∀ request ∈ requests, request.Shares table)
    (unused : (session.parser name).ran = false)
    (rest :
      ∀ after,
        (after.parser name).ran = false →
          Orderly receive conducts granted table levels next after) :
    Orderly receive conducts granted table levels
      (settingUp name requests next) session := by
  induction requests generalizing session with
  | nil => exact rest session unused
  | cons request requests inductionHypothesis =>
      rw [List.forall_mem_cons] at share
      intro left asked found moment makes
      cases makes with
      | now => exact ⟨unused, share.1⟩
      | later answers makes =>
          refine inductionHypothesis share.2 ?_ left asked found moment makes
          rw [← Activity.stateAfter_of_attempt answers]
          cases levels with
          | zero => exact unused
          | succ levels =>
              change
                (((asRun name (Run.setUp receive request)).stateAfter
                  session).parser name).ran = false
              rw [stateAfter_asRun, parser_ofFrame, Run.setUp_ran]
              exact unused

/-- What it takes to read a letter by the table of one letter. -/
def letterGiven : List SetUp :=
  [.loadTable (.table Single.table),
    .loadTokens (.list [.token (.ofKind "a"), .token .endOfInput])]

theorem letterGiven_shares :
    ∀ request ∈ letterGiven, request.Shares Single.table := by
  simp [letterGiven, SetUp.Shares]

/-- Run a parser, and take it as it comes. -/
def running
    (name : String) :
    Conduct Session (String × Request) :=
  .ask (name, .run) fun _ => .done

/-- A visitor has another parser read a letter whenever it hears of something, but only once. -/
def visiting : String → Event → Conduct Session (String × Request) :=
  fun _ _ =>
    .act id fun session =>
      if (session.parser "inner").ran then
        .done
      else
        settingUp "inner" letterGiven (running "inner")

/-- A parser reads a letter while a visitor is there. -/
def hosting : Conduct Session (String × Request) :=
  settingUp "outer" (.register (.observer "visitor") :: letterGiven)
    (running "outer")

/-- Observers do not care about symbol tables. -/
def uncaring : Receive Session :=
  fun _ _ => pure ()

/-- A session with nothing in it. -/
def deserted : Session :=
  .create ⟨.empty, [], 0⟩ [] [] (.empty .none)

/-- A run is in order if all callbacks are. -/
theorem running_orderly
    {name : String}
    (callbacks :
      ∀ fewer,
        levels = fewer + 1 →
          ∀ listener event heard,
            Orderly receive conducts granted table fewer
              (conducts listener event) heard) :
    Orderly receive conducts granted table levels (running name) session := by
  intro left asked found moment makes
  cases makes with
  | later _ makes => cases makes
  | within _ _ _ makes =>
      exact callbacks _ rfl _ _ _ left asked found moment makes

/-- A visitor makes its requests in order, at any depth. -/
theorem visiting_orderly
    (levels : Nat)
    (listener : String)
    (event : Event)
    (session : Session) :
    Orderly uncaring visiting granted Single.table levels
      (visiting listener event) session := by
  induction levels using Nat.strongRecOn generalizing listener event session with
  | ind levels inductionHypothesis =>
      intro left asked found moment makes
      cases makes with
      | act makes =>
          dsimp only [id] at makes
          split at makes
          · cases makes
          · next unused =>
              refine
                settingUp_orderly letterGiven_shares
                  (Bool.eq_false_iff.mpr unused) ?_ left asked found moment
                  makes
              intro after _
              refine running_orderly fun fewer isMore => ?_
              exact inductionHypothesis fewer (by omega)

theorem visiting_sparing
    (listener : String)
    (event : Event) :
    (visiting listener event).Respects (Leaves Single.table) := by
  intro session
  refine ⟨fun _ => ⟨rfl, .refl _ _ _⟩, ?_⟩
  dsimp only [id]
  split
  · trivial
  · exact fun _ _ _ => trivial

theorem hosting_sparing :
    hosting.Respects (Leaves Single.table) :=
  fun _ _ _ _ => trivial

theorem hosting_orderly :
    Orderly uncaring visiting granted Single.table levels hosting deserted := by
  refine settingUp_orderly ?_ rfl ?_
  · rw [List.forall_mem_cons]
    exact ⟨⟨"visitor", rfl⟩, letterGiven_shares⟩
  · intro after _
    exact running_orderly fun fewer _ => visiting_orderly fewer

/-- Whether both parsers have accepted once everything is done. -/
def bothAccept :
    EStateM.Result Halt Session Unit → Bool
  | .ok _ final =>
      (final.parser "outer").accepted && (final.parser "inner").accepted
  | .error .. => false

theorem hosting_accepts :
    bothAccept (hosting.enact (fulfil uncaring visiting 4 2) deserted) =
      true := by
  decide +kernel

/--
A parser that is visited comes to what it would come to alone, though its visitor has
another one read a letter in the middle of its run.
-/
theorem shared_table_visited :
    ∃ final,
      hosting.enact (fulfil uncaring visiting 4 2) deserted = .ok () final ∧
        (final.parser "outer").situation =
          (Run.frameAfter (Run.start Run.unheard 4)
            (Frame.alone Single.table
              [.token (.ofKind "a"), .token .endOfInput] false
              .empty)).situation ∧
        (final.parser "inner").accepted = true := by
  cases ends : hosting.enact (fulfil uncaring visiting 4 2) deserted with
  | error halt last =>
      have accepts := hosting_accepts
      rw [ends] at accepts
      cases accepts
  | ok result final =>
      have accepts := hosting_accepts
      rw [ends] at accepts
      obtain ⟨runs, _⟩ :=
        shared_table_undisturbed (fun _ _ _ _ => rfl) visiting_sparing
          hosting_sparing hosting_orderly
          (fun name => ⟨.none, false, rfl⟩) ends
      obtain ⟨_, tokens, _, loaded, _, _, situation, _⟩ :=
        runs 2 "outer" _ (.later rfl (.later rfl (.later rfl .now))) rfl rfl
      have given : tokens = [.token (.ofKind "a"), .token .endOfInput] :=
        loaded.pending.symm
      rw [given] at situation
      exact ⟨final, rfl, situation, (Bool.and_eq_true_iff.mp accepts).2⟩

end Visit

end Session

end ShiftReduce
