import ShiftReduce.Proofs.Request.Conduct
import ShiftReduce.Proofs.Request.SetUp
import ShiftReduce.Session.Perform

namespace ShiftReduce

/-!
# The parsers of a session

A parser at work has a frame of its own, with the session as the world around it.  What
becomes of the frame becomes of the session: the parser is put back under its name, the
store and the trace are taken over, and all other parsers are as they are in the world.

The commands that prepare a parser of a session set it up by the request they stand for
(`Session.execute_of_setUpOf`), so what holds of requests holds of them.
-/

namespace Directory

variable
  {α : Type}
  {name other : String}

/-- What has been put under a name is found there. -/
@[simp]
theorem lookup_put
    (name : String)
    (thing : α)
    (directory : Directory α) :
    List.lookup name (directory.put name thing) = some thing := by
  induction directory with
  | nil =>
      simp [Directory.put]
  | cons entry rest inductionHypothesis =>
      by_cases known : entry.1 = name
      · simp [Directory.put, known]
      · have other : (name == entry.1) = false := by
          simpa using Ne.symm known
        rw [Directory.put, if_neg known, List.lookup_cons, other]
        exact inductionHypothesis

/-- What is found under other names stays. -/
theorem lookup_put_of_ne
    (isOther : other ≠ name)
    (thing : α)
    (directory : Directory α) :
    List.lookup other (directory.put name thing) =
      List.lookup other directory := by
  have differs : (other == name) = false := beq_false_of_ne isOther
  induction directory with
  | nil => rw [Directory.put, List.lookup_cons, differs]
  | cons entry rest inductionHypothesis =>
      by_cases known : entry.1 = name
      · rw [Directory.put, if_pos known, List.lookup_cons, List.lookup_cons,
          known, differs]
      · rw [Directory.put, if_neg known, List.lookup_cons, List.lookup_cons,
          inductionHypothesis]

end Directory

namespace Session

variable {name other : String}

theorem parser_ofFrame
    (name : String)
    (frame : Frame Session) :
    (ofFrame name frame).parser name = frame.parser := by
  simp only [Session.parser, ofFrame, putParser, putStore, Directory.lookup_put,
    Option.getD_some]

/-- While a parser is at work, the other ones are as they are in its world. -/
theorem parser_ofFrame_of_ne
    (isOther : other ≠ name)
    (frame : Frame Session) :
    (ofFrame name frame).parser other = frame.world.parser other := by
  simp only [Session.parser, ofFrame, putParser, putStore,
    Directory.lookup_put_of_ne isOther]

/-- What a parser at work comes to is what becomes of the session. -/
theorem stateAfter_asRun
    {α : Type}
    (name : String)
    (run : Run Session α)
    (session : Session) :
    (asRun name run).stateAfter session =
      ofFrame name (Run.frameAfter run (session.frame name)) := by
  unfold Activity.stateAfter asRun Run.frameAfter
  cases run (session.frame name) with
  | ok result frame => rfl
  | error halt frame => rfl

/-- What a deed makes of the session is what becomes of the frame of a parser at work. -/
theorem frameAfter_duringRun
    {α : Type}
    (name : String)
    (deed : Deed α)
    (frame : Frame Session) :
    Run.frameAfter (duringRun name deed) frame =
      (deed.stateAfter (ofFrame name frame)).frame name := by
  simp only [Activity.stateAfter, duringRun, Run.frameAfter]
  cases deed (ofFrame name frame) with
  | ok result session => rfl
  | error halt session => rfl

/-- To operate on a parser of a session is to operate on it at work. -/
theorem asRun_operate
    {α : Type}
    (name : String)
    (operation : Operation α)
    (session : Session) :
    asRun name (Run.operate operation) session =
      operate name operation session := by
  have sameParser : (session.frame name).parser = session.parser name := rfl
  simp only [asRun, Run.operate, operate, sameParser]
  cases operation (session.parser name) with
  | ok result parser => rfl
  | error cause parser => rfl

/-- How the observers of a session receive a symbol table. -/
def receiving : Receive Session :=
  fun name symbolTable session =>
    match session.observers.lookup name with
    | some recipient =>
        .ok ()
          (session.putObserver name
            { recipient with symbolTable := symbolTable })
    | none => .error (session.store.settle (.unknownName name)) session

/-- Observers receive the symbol tables that they are handed. -/
theorem giveSymbolTable_eq
    (name : String)
    (symbolTable : Value)
    (session : Session) :
    giveSymbolTable name symbolTable session =
      match receiving name symbolTable session with
      | .ok result after => .ok result after
      | .error cause after => .error (.fault cause) after := by
  have looksUp :
      observer name session =
        demand
          (match session.observers.lookup name with
            | some found => .ok found
            | none => .error (.unknownName name))
          session :=
    rfl
  cases known : session.observers.lookup name with
  | some recipient =>
      rw [known] at looksUp
      simp only [receiving, known]
      exact Run.bind_of_ok looksUp
  | none =>
      rw [known] at looksUp
      simp only [receiving, known]
      exact Run.bind_of_error looksUp

/-- To register a listener is to set the parser up with it. -/
theorem asRun_register
    (name : String)
    (listener : Listener)
    (session : Session) :
    asRun name (Run.setUp receiving (.register listener)) session =
      (do
        let recipient ← operate name (Parser.register listener)
        let session ← get
        giveSymbolTable recipient (session.parser name).registry.symbolTable)
        session := by
  cases listener with
  | stranger value => rfl
  | observer recipient =>
      let registered : Parser :=
        { session.parser name with
          registry :=
            (session.parser name).registry.add (.observer recipient) }
      have registers :
          operate name (Parser.register (.observer recipient)) session =
            .ok recipient (session.putParser name registered) :=
        rfl
      have held :
          (session.putParser name registered).parser name = registered := by
        simp only [Session.parser, putParser, Directory.lookup_put,
          Option.getD_some]
      have setsUp :
          Run.setUp receiving (.register (.observer recipient))
              (session.frame name) =
            Run.inWorld (receiving recipient registered.registry.symbolTable)
              { session.frame name with parser := registered } :=
        rfl
      rw [Run.bind_of_ok registers]
      change
        _ =
          giveSymbolTable recipient
            ((session.putParser name registered).parser
              name).registry.symbolTable
            (session.putParser name registered)
      rw [held, giveSymbolTable_eq, asRun, setsUp]
      -- The observer is put back into the world of the frame on one side, and into the
      -- session that holds the parser already on the other.
      simp only [Run.inWorld, receiving, frame, putParser]
      cases session.observers.lookup recipient with
      | some found => rfl
      | none => rfl

/-- How a command makes the request to set a parser up that it stands for, if any. -/
def setUpOf :
    Command → Option (Deed SetUp)
  | .register candidate => some (.register <$> listener candidate)
  | .loadTokens tokens => some (.loadTokens <$> inWorkshop tokens.build)
  | .loadTable table => some (.loadTable <$> inWorkshop table.build)
  | .setVerbose verbose => some (pure (.setVerbose verbose))
  | _ => none

/-- A command that stands for a request makes it, and sets the parser up by it. -/
theorem execute_of_setUpOf
    {command : Command}
    {making : Deed SetUp}
    (stands : setUpOf command = some making)
    (perform : Step → Deed Report)
    (granted : Nat)
    (name : String) :
    execute perform granted name command = do
      let request ← making
      asRun name (Run.setUp receiving request)
      return .nothing := by
  cases command with
  | register candidate =>
      cases stands
      rw [bind_map_left]
      refine congrArg (listener candidate >>= ·) (funext fun listener => ?_)
      funext session
      rw [Run.bind_of_eq (asRun_register name listener session)]
      simp only [bind_assoc]
  | loadTokens tokens =>
      cases stands
      rw [bind_map_left]
      refine congrArg (inWorkshop tokens.build >>= ·) (funext fun value => ?_)
      funext session
      exact Run.bind_of_eq (asRun_operate name _ session).symm
  | loadTable table =>
      cases stands
      rw [bind_map_left]
      refine congrArg (inWorkshop table.build >>= ·) (funext fun value => ?_)
      funext session
      exact Run.bind_of_eq (asRun_operate name _ session).symm
  | setVerbose verbose =>
      cases stands
      funext session
      exact Run.bind_of_eq (asRun_operate name _ session).symm
  | _ => cases stands

end Session

end ShiftReduce
