import ShiftReduce.Packaging.ExtensionOptions

namespace ShiftReduce.Packaging

/-!
# Build commands finalized again

A build command may be finalized any number of times, and its user may change its options
and the extensions of its distribution in between.  An initialized command is left alone.
But finalizing a command does not initialize it, so a command that is compiled once is
compiled on every call, and every call overrides what its user has put into the
distribution.  That is so whether or not the finalizing that is common to all build commands
fails in the end.

`BuildCommand.options_kept_iff` counts the compilations of every history of a command, says
what every call makes of the distribution, and that options are kept exactly if finalizing
the command does not compile.
-/

variable {ω : Type}

/--
The common finalizing sees to a command's own options only, whether it fails or not: it does
not initialize the command, and it neither changes the distribution nor compiles.
-/
structure Toolchain.IsConfined
    (toolchain : Toolchain ω) :
    Prop where
  initialized :
    ∀ command, (toolchain.finalize command).2.initialized = command.initialized
  distribution :
    ∀ command, (toolchain.finalize command).2.distribution = command.distribution
  compilations :
    ∀ command, (toolchain.finalize command).2.compilations = command.compilations

/-- What happens to a build command: it is finalized, or its user changes options. -/
inductive BuildEvent (ω : Type) where
  | finalization
  | change (distribution : List Extension) (options : ω)
  deriving Repr, DecidableEq

namespace BuildEvent

/-- Whether an event is the user's own doing. -/
def isChange :
    BuildEvent ω → Bool
  | .finalization => false
  | .change .. => true

/-- How often a command is finalized. -/
def finalizations :
    List (BuildEvent ω) → Nat
  | [] => 0
  | .finalization :: rest => finalizations rest + 1
  | .change .. :: rest => finalizations rest

/-- What is left of a history without its finalizations. -/
def changes
    (events : List (BuildEvent ω)) :
    List (BuildEvent ω) :=
  events.filter isChange

end BuildEvent

namespace BuildCommand

/-- A command after one event, whatever a finalization has come to. -/
def undergo
    (toolchain : Toolchain ω)
    (circumstances : Circumstances)
    (command : BuildCommand ω) :
    BuildEvent ω → BuildCommand ω
  | .finalization => (command.finalize toolchain circumstances).2
  | .change distribution options =>
      { command with
        distribution := distribution
        options := options }

/-- A command after a history of events. -/
def after
    (toolchain : Toolchain ω)
    (circumstances : Circumstances)
    (command : BuildCommand ω)
    (events : List (BuildEvent ω)) :
    BuildCommand ω :=
  events.foldl (undergo toolchain circumstances) command

/-- Whether finalizing a command calls the compiler. -/
def recompiles
    (circumstances : Circumstances)
    (command : BuildCommand ω) :
    Bool :=
  !command.initialized && circumstances.compiled && circumstances.compilerInstalled

/--
The extensions of the distribution once a command is finalized: what the compiler makes, if it
is called and succeeds, or else what is there.
-/
def distributionNext
    (toolchain : Toolchain ω)
    (circumstances : Circumstances)
    (command : BuildCommand ω) :
    List Extension :=
  if command.recompiles circumstances then
    (toolchain.compile command.compilations compiledSources).toOption.getD
      command.distribution
  else
    command.distribution

/--
Whatever happens to a command after its first finalization, further ones keep the
distribution as it is found, and the compiler is called once at most.
-/
def KeepsOptions
    (toolchain : Toolchain ω)
    (circumstances : Circumstances)
    (command : BuildCommand ω) :
    Prop :=
  ∀ events : List (BuildEvent ω),
    let later := command.after toolchain circumstances (.finalization :: events)
    (later.finalize toolchain circumstances).2.distribution = later.distribution ∧
      later.compilations.length ≤ command.compilations.length + 1

variable
  {toolchain : Toolchain ω}
  {circumstances : Circumstances}
  {command : BuildCommand ω}
  {event : BuildEvent ω}

/-- All that finalizing a command can come to. -/
inductive Finalizes
    (toolchain : Toolchain ω)
    (circumstances : Circumstances)
    (command : BuildCommand ω) :
    Option Failure × BuildCommand ω → Prop where
  | untouched
      (idle : command.recompiles circumstances = false)
      (failure : Option Failure) :
      Finalizes toolchain circumstances command (failure, command)
  | uncompiled
      (idle : command.recompiles circumstances = false) :
      Finalizes toolchain circumstances command (toolchain.finalize command)
  | compilerFailed
      {failure : Failure}
      (compiles : command.recompiles circumstances = true)
      (failed :
        toolchain.compile command.compilations compiledSources = .error failure) :
      Finalizes toolchain circumstances command
        (some failure,
          { command with compilations := command.compilations ++ [compiledSources] })
  | compiled
      {made : List Extension}
      (compiles : command.recompiles circumstances = true)
      (succeeded :
        toolchain.compile command.compilations compiledSources = .ok made) :
      Finalizes toolchain circumstances command
        (toolchain.finalize
          { command with
            distribution := made
            compilations := command.compilations ++ [compiledSources] })

theorem finalize_finalizes
    (toolchain : Toolchain ω)
    (circumstances : Circumstances)
    (command : BuildCommand ω) :
    Finalizes toolchain circumstances command
      (command.finalize toolchain circumstances) := by
  rcases command with ⟨initialized, distribution, options, compilations⟩
  rcases circumstances with ⟨compiled, compilerInstalled⟩
  cases initialized with
  | true => exact .untouched rfl none
  | false =>
      cases compiled with
      | false => exact .uncompiled rfl
      | true =>
          cases compilerInstalled with
          | false => exact .untouched rfl (some .noCompiler)
          | true =>
              cases answer : toolchain.compile compilations compiledSources with
              | error failure =>
                  simp only [finalize, recompile, answer, Bool.false_eq_true,
                    ↓reduceIte]
                  exact .compilerFailed rfl answer
              | ok made =>
                  simp only [finalize, recompile, answer, Bool.false_eq_true,
                    ↓reduceIte]
                  exact .compiled rfl answer

namespace Finalizes

variable
  {outcome : Option Failure × BuildCommand ω}
  (finalizes : Finalizes toolchain circumstances command outcome)
  (confined : toolchain.IsConfined)

include finalizes confined

theorem initialized :
    outcome.2.initialized = command.initialized := by
  cases finalizes with
  | untouched | compilerFailed => rfl
  | uncompiled => exact confined.initialized _
  | compiled => exact confined.initialized _

/-- Finalizing overrides the distribution if the compiler succeeds, and keeps it otherwise. -/
theorem distribution :
    outcome.2.distribution = command.distributionNext toolchain circumstances := by
  unfold distributionNext
  cases finalizes with
  | untouched idle =>
      rw [idle]
      rfl
  | uncompiled idle =>
      rw [confined.distribution, idle]
      rfl
  | compilerFailed compiles failed =>
      rw [if_pos compiles, failed]
      rfl
  | compiled compiles succeeded =>
      rw [confined.distribution, if_pos compiles, succeeded]
      rfl

theorem compilations :
    outcome.2.compilations =
      command.compilations ++
        if command.recompiles circumstances then [compiledSources] else [] := by
  cases finalizes with
  | untouched idle =>
      rw [idle]
      exact (List.append_nil _).symm
  | uncompiled idle =>
      rw [confined.compilations, idle]
      exact (List.append_nil _).symm
  | compilerFailed compiles failed => rw [if_pos compiles]
  | compiled compiles succeeded => rw [confined.compilations, if_pos compiles]

end Finalizes

section Confined

variable (confined : toolchain.IsConfined)

include confined

/-- Whether finalizing compiles is settled before anything happens to a command. -/
theorem recompiles_undergo :
    (command.undergo toolchain circumstances event).recompiles circumstances =
      command.recompiles circumstances := by
  cases event with
  | change distribution options => rfl
  | finalization =>
      have kept :=
        (finalize_finalizes toolchain circumstances command).initialized confined
      rw [recompiles, undergo, kept, recompiles]

theorem recompiles_after
    (events : List (BuildEvent ω)) :
    (command.after toolchain circumstances events).recompiles circumstances =
      command.recompiles circumstances := by
  induction events generalizing command with
  | nil => rfl
  | cons event rest inductionHypothesis =>
      exact inductionHypothesis.trans (recompiles_undergo confined)

/-- A command that compiles when it is finalized does so every time. -/
theorem compilations_after
    (events : List (BuildEvent ω)) :
    (command.after toolchain circumstances events).compilations =
      command.compilations ++
        if command.recompiles circumstances then
          List.replicate (BuildEvent.finalizations events) compiledSources
        else
          [] := by
  induction events generalizing command with
  | nil => cases command.recompiles circumstances <;> exact (List.append_nil _).symm
  | cons event rest inductionHypothesis =>
      have later :
          (command.after toolchain circumstances (event :: rest)).compilations = _ :=
        inductionHypothesis
      rw [later, recompiles_undergo confined]
      cases event with
      | change distribution options => rfl
      | finalization =>
          have compiled :=
            (finalize_finalizes toolchain circumstances command).compilations confined
          rw [undergo, compiled, List.append_assoc]
          cases command.recompiles circumstances with
          | false => rfl
          | true =>
              simp only [BuildEvent.finalizations, List.replicate_succ, ↓reduceIte,
                List.singleton_append]

theorem distribution_finalize
    (command : BuildCommand ω) :
    (command.finalize toolchain circumstances).2.distribution =
      command.distributionNext toolchain circumstances :=
  (finalize_finalizes toolchain circumstances command).distribution confined

/-- Where finalizing compiles, it has done so twice after the second time. -/
theorem not_keepsOptions_of_recompiles
    (compiles : command.recompiles circumstances = true) :
    ¬ command.KeepsOptions toolchain circumstances := by
  intro keeps
  have once := (keeps [.finalization]).2
  rw [compilations_after confined, if_pos compiles, List.length_append,
    List.length_replicate] at once
  change _ + 2 ≤ _ at once
  omega

theorem keepsOptions_of_not_recompiles
    (idle : command.recompiles circumstances = false) :
    command.KeepsOptions toolchain circumstances := by
  intro events
  constructor
  · rw [distribution_finalize confined, distributionNext, recompiles_after confined,
      idle]
    rfl
  · rw [compilations_after confined, idle]
    simp

end Confined

/-- An initialized command is left alone when it is finalized. -/
theorem finalize_of_initialized
    (initialized : command.initialized = true) :
    command.finalize toolchain circumstances = (none, command) :=
  if_pos initialized

/-- An initialized command is changed by its user alone. -/
theorem after_of_initialized
    (initialized : command.initialized = true)
    (events : List (BuildEvent ω)) :
    command.after toolchain circumstances events =
      command.after toolchain circumstances (BuildEvent.changes events) := by
  induction events generalizing command with
  | nil => rfl
  | cons event rest inductionHypothesis =>
      cases event with
      | change distribution options => exact inductionHypothesis initialized
      | finalization =>
          change after _ _ (command.finalize toolchain circumstances).2 rest = _
          rw [finalize_of_initialized initialized]
          exact inductionHypothesis initialized

/-- Finalizing a command a number of times is a history of so many finalizations. -/
theorem finalizeRepeatedly_eq_after
    (toolchain : Toolchain ω)
    (circumstances : Circumstances)
    (times : Nat)
    (command : BuildCommand ω) :
    (finalizeRepeatedly toolchain circumstances times command).2 =
      command.after toolchain circumstances (List.replicate times .finalization) := by
  induction times generalizing command with
  | zero => rfl
  | succ times inductionHypothesis => exact inductionHypothesis _

end BuildCommand

/-- What is common to commands that build extensions, for any compiler. -/
abbrev Toolchain.extending
    (compile : List (List String) → List String → Except Failure (List Extension)) :
    Toolchain ExtensionOptions :=
  ⟨compile, BuildCommand.finalizeExtensions⟩

/-- Finalizing a command that builds extensions concerns its own options only. -/
theorem Toolchain.extending_isConfined
    (compile : List (List String) → List String → Except Failure (List Extension)) :
    (Toolchain.extending compile).IsConfined := by
  have each :
      ∀ command : BuildCommand ExtensionOptions,
        command.finalizeExtensions.2.initialized = command.initialized ∧
          command.finalizeExtensions.2.distribution = command.distribution ∧
          command.finalizeExtensions.2.compilations = command.compilations := by
    rintro ⟨initialized, distribution, ⟨extensions, generatorOptions⟩, compilations⟩
    cases generatorOptions <;> exact ⟨rfl, rfl, rfl⟩
  exact
    ⟨fun command => (each command).1, fun command => (each command).2.1,
      fun command => (each command).2.2⟩

/-- A compiler that makes an extension of each source, and never fails. -/
def compileEach
    (_ : List (List String))
    (sources : List String) :
    Except Failure (List Extension) :=
  .ok (sources.map fun source => ⟨source, [source]⟩)

namespace BuildCommand

/-- A command that builds extensions fails whenever its common finalizing comes again. -/
theorem finalizeExtensions_again
    (command : BuildCommand ExtensionOptions) :
    command.finalizeExtensions.2.finalizeExtensions.1 = some .noText := by
  rcases command with ⟨initialized, distribution, ⟨extensions, generatorOptions⟩, _⟩
  cases generatorOptions <;> rfl

end BuildCommand

end ShiftReduce.Packaging
