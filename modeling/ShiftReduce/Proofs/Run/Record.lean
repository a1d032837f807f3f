import ShiftReduce.Proofs.Run.Position

namespace ShiftReduce

/-!
# What observers take down

An observer that stands on the registry once is told of every action once, in
order.  Whatever it takes down of an event (`note`), its record has grown by just
that once the action is carried out (`Run.Records.performs`).  Where telling the
observers does not come to an end, the observer may have heard of the action or
not (`Run.Records.interrupted`).
-/

/-- Whether a listener is the observer of a name. -/
def Listener.isNamed
    (name : String) :
    Listener → Bool
  | .observer other => other == name
  | .stranger _ => false

/-- How often the observer of a name stands among listeners. -/
def Listener.timesAmong
    (name : String)
    (listeners : List Listener) :
    Nat :=
  listeners.countP (·.isNamed name)

theorem Listener.timesAmong_cons
    (name : String)
    (listener : Listener)
    (rest : List Listener) :
    timesAmong name (listener :: rest) =
      (listener.isNamed name).toNat + timesAmong name rest := by
  cases named : listener.isNamed name with
  | true => simp [timesAmong, named, Nat.add_comm]
  | false => simp [timesAmong, named]

namespace Parser

/-- One parser becomes another with its registry, its mark of having run and its voice. -/
structure Keeps
    (before after : Parser) :
    Prop where
  registry : after.registry = before.registry
  ran : after.ran = before.ran
  verbose : after.verbose = before.verbose

theorem popFrames_keeps
    {depth : Nat}
    {parser after : Parser}
    (popped : popFrames depth parser = .ok () after) :
    parser.Keeps after := by
  induction depth generalizing parser with
  | zero =>
      cases popped
      exact ⟨rfl, rfl, rfl⟩
  | succ depth inductionHypothesis =>
      rcases parser with
        ⟨registry, table, states, symbols, pending, accepted, ran, verbose⟩
      cases states with
      | nil =>
          cases popped
      | cons state states =>
          cases symbols with
          | nil =>
              cases popped
          | cons symbol symbols =>
              change
                popFrames depth
                    ⟨registry, table, states, symbols, pending, accepted, ran,
                      verbose⟩ =
                  .ok () after at popped
              have kept := inductionHypothesis popped
              exact ⟨kept.registry, kept.ran, kept.verbose⟩

/-- Carrying out an action touches nothing but the parse. -/
theorem commit_keeps
    {decision : Decision}
    {parser after : Parser}
    (committed : commit decision parser = .ok () after) :
    parser.Keeps after := by
  cases decision with
  | shift state token next =>
      rcases parser with
        ⟨registry, table, states, symbols, pending, accepted, ran, verbose⟩
      cases token with
      | token carried =>
          cases pending with
          | nil =>
              cases committed
          | cons first rest =>
              cases committed
              exact ⟨rfl, rfl, rfl⟩
      | _ =>
          cases committed
  | reduce state production next =>
      simp only [commit, bind, EStateM.bind] at committed
      cases popped : popFrames production.length parser with
      | error cause left =>
          simp [popped] at committed
      | ok result left =>
          simp only [popped] at committed
          cases wrapped : Symbol.wrapNonterminal production.head with
          | error cause =>
              rw [wrapped] at committed
              cases committed
          | ok symbol =>
              rw [wrapped] at committed
              cases committed
              have kept : parser.Keeps left := popFrames_keeps popped
              exact ⟨kept.registry, kept.ran, kept.verbose⟩
  | accept state =>
      cases committed
      exact ⟨rfl, rfl, rfl⟩

end Parser

namespace Run

variable
  {ω β : Type}
  {deliver : Deliver ω}

section Telling

variable
  {observer : String}
  {note : Event → List β}
  {record : ω → List β}
  {event : Event}
  {frame : Frame ω}

/-- Telling a listener adds a note if it is the observer. -/
theorem tell_notes
    {listener : Listener}
    (own :
      listener = .observer observer →
        record (frameAfter (deliver observer event) frame).world =
          record frame.world ++ note event)
    (others :
      ∀ name,
        name ≠ observer →
          listener = .observer name →
            record (frameAfter (deliver name event) frame).world =
              record frame.world) :
    record (frameAfter (listener.tell deliver event) frame).world =
      record frame.world ++
        (List.replicate (listener.isNamed observer).toNat
          (note event)).flatten := by
  cases listener with
  | stranger value =>
      exact (List.append_nil _).symm
  | observer name =>
      change record (frameAfter (deliver name event) frame).world = _
      by_cases isOwn : name = observer
      · subst isOwn
        rw [own rfl]
        simp [Listener.isNamed]
      · rw [others name isOwn rfl]
        simp [Listener.isNamed, beq_false_of_ne isOwn]

/-- Telling listeners adds a note for each time that the observer hears. -/
theorem tellAll_notes
    {listeners : List Listener}
    (own :
      ∀ moment,
        Tells deliver event listeners frame observer moment →
          record (frameAfter (deliver observer event) moment).world =
            record moment.world ++ note event)
    (others :
      ∀ name moment,
        name ≠ observer →
          Tells deliver event listeners frame name moment →
            record (frameAfter (deliver name event) moment).world =
              record moment.world) :
    ∃ times,
      times ≤ Listener.timesAmong observer listeners ∧
        record
            (frameAfter (Listener.tellAll deliver event listeners) frame).world =
          record frame.world ++ (List.replicate times (note event)).flatten ∧
        ∀ told,
          Listener.tellAll deliver event listeners frame = .ok () told →
            times = Listener.timesAmong observer listeners := by
  induction listeners generalizing frame with
  | nil =>
      exact ⟨0, Nat.le_refl 0, by simp [frameAfter, Listener.tellAll, pure,
        EStateM.pure], fun _ _ => rfl⟩
  | cons listener rest inductionHypothesis =>
      have unfolded :
          Listener.tellAll deliver event (listener :: rest) =
            (listener.tell deliver event >>= fun _ =>
              Listener.tellAll deliver event rest) :=
        rfl
      have noted :
          record (frameAfter (listener.tell deliver event) frame).world =
            record frame.world ++
              (List.replicate (listener.isNamed observer).toNat
                (note event)).flatten := by
        apply tell_notes
        · rintro rfl
          exact own frame .now
        · rintro name isOther rfl
          exact others name frame isOther .now
      rw [Listener.timesAmong_cons, unfolded]
      cases told : listener.tell deliver event frame with
      | error halt after =>
          rw [frameAfter_of_error told] at noted
          refine ⟨_, Nat.le_add_right _ _, ?_, ?_⟩
          · rw [frameAfter_of_error (bind_of_error told)]
            exact noted
          · intro last ends
            rw [bind_of_error told] at ends
            cases ends
      | ok result next =>
          rw [frameAfter_of_ok told] at noted
          obtain ⟨times, bounded, grown, all⟩ :=
            inductionHypothesis
              (fun moment tells => own moment (.later told tells))
              (fun name moment isOther tells =>
                others name moment isOther (.later told tells))
          refine ⟨_, Nat.add_le_add_left bounded _, ?_, ?_⟩
          · simp only [frameAfter, bind_of_ok told]
            rw [← List.replicate_append_replicate, List.flatten_append,
              ← List.append_assoc, ← noted]
            exact grown
          · intro last ends
            rw [bind_of_ok told] at ends
            rw [all last ends]

/-- Telling listeners to the end comes to every observer among them. -/
theorem tells_of_listed
    {listeners : List Listener}
    {told : Frame ω}
    (listed : 0 < Listener.timesAmong observer listeners)
    (ends : Listener.tellAll deliver event listeners frame = .ok () told) :
    ∃ moment, Tells deliver event listeners frame observer moment := by
  obtain ⟨listener, member, named⟩ := List.countP_pos_iff.mp listed
  obtain ⟨position, placed⟩ := List.mem_iff_getElem?.mp member
  obtain ⟨moment, tellsAt⟩ := tellsAt_of_ok ends placed
  have isObserver : listener = .observer observer := by
    cases listener with
    | observer name => simpa [Listener.isNamed] using named
    | stranger value => cases named
  exact ⟨moment, tellsAt.tells isObserver⟩

end Telling

/--
An observer stands on the registry once throughout a run, and adds a note of
every event to its record; nobody else writes in it.
-/
structure Records
    (deliver : Deliver ω)
    (table : Value)
    (start : Frame ω)
    (observer : String)
    (note : Event → List β)
    (record : ω → List β) :
    Prop where
  listed : Listener.timesAmong observer start.parser.registry.listeners = 1
  stays :
    ∀ name event moment,
      Callback deliver table start name event moment →
        Listener.timesAmong observer
            (frameAfter (deliver name event) moment).parser.registry.listeners =
          Listener.timesAmong observer moment.parser.registry.listeners
  own :
    ∀ event moment,
      Callback deliver table start observer event moment →
        record (frameAfter (deliver observer event) moment).world =
          record moment.world ++ note event
  others :
    ∀ name event moment,
      name ≠ observer →
        Callback deliver table start name event moment →
          record (frameAfter (deliver name event) moment).world =
            record moment.world

namespace Records

variable
  {table : Value}
  {start before : Frame ω}
  {observer : String}
  {note : Event → List β}
  {record : ω → List β}

/-- The observer stands on the registry once whenever an action is due. -/
theorem once
    (records : Records deliver table start observer note record)
    (reaches : Reaches deliver table start before) :
    Listener.timesAmong observer before.parser.registry.listeners = 1 := by
  have kept :
      Listener.timesAmong observer before.parser.registry.listeners =
        Listener.timesAmong observer start.parser.registry.listeners := by
    refine reaches.relates
      (fun earlier later =>
        Listener.timesAmong observer later.parser.registry.listeners =
          Listener.timesAmong observer earlier.parser.registry.listeners)
      (fun _ => rfl)
      (fun first second => second.trans first)
      ?_ ?_ records.stays
    · intro before after prints
      rw [prints.parser]
    · intro told decision parser committed
      rw [(Parser.commit_keeps committed).registry]
  rw [kept]
  exact records.listed

/-- A notification reaches the observer at most once, and once if it comes to an end. -/
theorem notify_notes
    (records : Records deliver table start observer note record)
    {shown : Frame ω}
    {decision : Decision}
    (reaches : Reaches deliver table start before)
    (decides : Decides table before decision shown) :
    ∃ times,
      times ≤ 1 ∧
        record (frameAfter (notify deliver decision.event) shown).world =
          record before.world ++
            (List.replicate times (note decision.event)).flatten ∧
        ∀ told,
          notify deliver decision.event shown = .ok () told → times = 1 := by
  have once := records.once reaches
  rw [← decides.printsTo.parser] at once
  rw [← once, ← decides.printsTo.world]
  exact tellAll_notes
    (fun moment tells =>
      records.own decision.event moment (.intro reaches decides tells))
    (fun name moment isOther tells =>
      records.others name decision.event moment isOther
        (.intro reaches decides tells))

/-- The observer has heard of every action that all have been told of. -/
theorem tells
    (records : Records deliver table start observer note record)
    {shown told : Frame ω}
    {decision : Decision}
    (reaches : Reaches deliver table start before)
    (decides : Decides table before decision shown)
    (notified : notify deliver decision.event shown = .ok () told) :
    ∃ moment,
      Tells deliver decision.event shown.parser.registry.listeners shown
        observer moment := by
  have once := records.once reaches
  rw [← decides.printsTo.parser] at once
  exact tells_of_listed (by rw [once]; exact Nat.one_pos) notified

/-- Once all have been told of an action, the record has grown by a note of its event. -/
theorem notified
    (records : Records deliver table start observer note record)
    {shown told : Frame ω}
    {decision : Decision}
    (reaches : Reaches deliver table start before)
    (decides : Decides table before decision shown)
    (notified : notify deliver decision.event shown = .ok () told) :
    record told.world = record before.world ++ note decision.event := by
  obtain ⟨times, _, grown, all⟩ := records.notify_notes reaches decides
  have once : times = 1 := all told notified
  subst once
  rw [frameAfter_of_ok notified] at grown
  rw [grown]
  simp

/-- With every action carried out, the record grows by a note of its event. -/
theorem performs
    (records : Records deliver table start observer note record)
    {after : Frame ω}
    {decision : Decision}
    (reaches : Reaches deliver table start before)
    (performs : Performs deliver table before decision after) :
    record after.world = record before.world ++ note decision.event := by
  cases performs with
  | @intro shown told _ parser decides notified committed prints =>
      have grown := records.notified reaches decides notified
      rw [prints.world]
      exact grown

/-- Where telling the observers does not come to an end, the event is noted or not. -/
theorem interrupted
    (records : Records deliver table start observer note record)
    {shown after : Frame ω}
    {decision : Decision}
    {halt : Halt}
    (reaches : Reaches deliver table start before)
    (decides : Decides table before decision shown)
    (interrupted : notify deliver decision.event shown = .error halt after) :
    record after.world = record before.world ∨
      record after.world = record before.world ++ note decision.event := by
  obtain ⟨times, bounded, grown, _⟩ := records.notify_notes reaches decides
  rw [frameAfter_of_error interrupted] at grown
  have few : times = 0 ∨ times = 1 := by
    omega
  rcases few with none | once
  · subst none
    exact .inl (by simpa using grown)
  · subst once
    exact .inr (by simpa using grown)

end Records

end Run

end ShiftReduce
