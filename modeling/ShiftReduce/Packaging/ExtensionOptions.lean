import ShiftReduce.Packaging.Build

namespace ShiftReduce.Packaging

/-!
# Options of commands that build extensions

Of all that commands which build extensions have in common when they are finalized, two
steps matter if they are finalized again.  They take over the extensions of their
distribution.  Later on they take apart the options that are meant for a generator of
interfaces, and these are not looked at before they are: what has been taken apart already is
no text any more, and so the second time fails.
-/

/-- An option that holds words: left out, given as one text, or taken apart. -/
inductive WordsOption where
  | absent
  | text (given : String)
  | words (each : List String)
  deriving Repr, DecidableEq

/-- What is wrong with an option that is to be taken apart a second time. -/
def Failure.noText : Failure :=
  .foreign "AttributeError" "'list' object has no attribute 'split'"

/-- Take an option apart at its spaces, which can be done once. -/
def WordsOption.takeApart :
    WordsOption → Except Failure WordsOption
  | .absent => .ok (.words [])
  | .text given => .ok (.words (given.splitOn " "))
  | .words _ => .error .noText

/-- Those options of a command that builds extensions which count if it is finalized again. -/
structure ExtensionOptions where
  extensions : List Extension
  generatorOptions : WordsOption
  deriving Repr, DecidableEq

/-- The options of a command that has not been finalized, and whose user has set none. -/
def ExtensionOptions.unset : ExtensionOptions :=
  ⟨[], .absent⟩

/-- What is common to commands that build extensions when they are finalized. -/
def BuildCommand.finalizeExtensions
    (command : BuildCommand ExtensionOptions) :
    Option Failure × BuildCommand ExtensionOptions :=
  let options := { command.options with extensions := command.distribution }
  match options.generatorOptions.takeApart with
  | .ok taken =>
      (none,
        { command with options := { options with generatorOptions := taken } })
  | .error failure => (some failure, { command with options := options })

end ShiftReduce.Packaging
