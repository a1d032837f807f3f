import ShiftReduce.Packaging.Version

namespace ShiftReduce.Packaging

/-!
# Building the package

The package can be compiled before it is installed.  Compilation is switched on
from the environment or by an argument.  A placeholder then stands for the
extensions, so that the build command runs at all, and finalizing the command
replaces it by what the compiler makes of the package's sources.

The compiler, and what every build command does when it is finalized, come with
a `Toolchain`.  Nothing is said here of what they do: each of them may fail, and
the latter may have changed the command by then.
-/

/--
Why packaging fails: for a reason of its own, or because the toolchain does, by a fault of
some class with some wording.
-/
inductive Failure where
  | noVersion
  | noCompiler
  | foreign (typeName wording : String)
  deriving Repr, DecidableEq

/-- What the compiler depends on. -/
def compilerRequirement : String := "mypy>=0.910"

/-- The name of a failure's class. -/
def Failure.typeName :
    Failure → String
  | .noVersion => "RuntimeError"
  | .noCompiler => "RuntimeError"
  | .foreign typeName _ => typeName

/-- The wording of a failure. -/
def Failure.message :
    Failure → String
  | .noVersion => "unable to read the version from lrdriver/_version.py"
  | .noCompiler =>
      "please install " ++ compilerRequirement ++
        " to compile lrdriver from source"
  | .foreign _ wording => wording

/-- An extension module with its sources. -/
structure Extension where
  name : String
  sources : List String
  deriving Repr, DecidableEq

/-- What stands for the extensions until they are compiled. -/
def placeholder : Extension :=
  ⟨"lrdriver.foo", ["lrdriver/foo.c"]⟩

/-- The sources that are compiled. -/
def compiledSources : List String :=
  ["lrdriver/ast.py", "lrdriver/grammar.py", "lrdriver/lrparser.py"]

/-- Whether the environment or an argument asks for compilation. -/
def wantsCompilation
    (environment : Option String)
    (arguments : List String) :
    Bool :=
  environment == some "true" || environment == some "1" ||
    environment == some "on" || arguments.contains "--use-mypyc"

/-- What has to be installed before the package is set up. -/
def setupRequirements
    (compiled : Bool) :
    List String :=
  if compiled then
    [compilerRequirement]
  else
    []

/-- The extensions that the package declares. -/
def declaredExtensions
    (compiled : Bool) :
    List Extension :=
  if compiled then
    [placeholder]
  else
    []

/--
A build command: whether it counts as initialized, the extensions of its distribution, its
options, and with which sources the compiler has been called.
-/
structure BuildCommand (ω : Type) where
  initialized : Bool
  distribution : List Extension
  options : ω
  compilations : List (List String)
  deriving Repr, DecidableEq

/--
What building the package relies on: a compiler of sources, whose answer may depend on how it
was called before, and the finalizing that is common to all build commands.
-/
structure Toolchain (ω : Type) where
  compile : List (List String) → List String → Except Failure (List Extension)
  finalize : BuildCommand ω → Option Failure × BuildCommand ω

/-- The circumstances of a build: whether compilation is wanted and whether it is possible. -/
structure Circumstances where
  compiled : Bool
  compilerInstalled : Bool
  deriving Repr, DecidableEq

namespace BuildCommand

variable {ω : Type}

/-- A build command that has not been finalized yet. -/
def create
    (circumstances : Circumstances)
    (initialized : Bool)
    (options : ω) :
    BuildCommand ω :=
  ⟨initialized, declaredExtensions circumstances.compiled, options, []⟩

/-- Replace the extensions of the distribution by what the compiler makes, if it succeeds. -/
def recompile
    (toolchain : Toolchain ω)
    (command : BuildCommand ω) :
    Option Failure × BuildCommand ω :=
  let called :=
    { command with compilations := command.compilations ++ [compiledSources] }
  match toolchain.compile command.compilations compiledSources with
  | .ok made => (none, { called with distribution := made })
  | .error failure => (some failure, called)

/-- Finalize the command's options; an initialized command is left alone. -/
def finalize
    (toolchain : Toolchain ω)
    (circumstances : Circumstances)
    (command : BuildCommand ω) :
    Option Failure × BuildCommand ω :=
  if command.initialized then
    (none, command)
  else if circumstances.compiled then
    if circumstances.compilerInstalled then
      match command.recompile toolchain with
      | (none, recompiled) => toolchain.finalize recompiled
      | failed => failed
    else
      (some .noCompiler, command)
  else
    toolchain.finalize command

/-- Finalize the command a number of times, and list what came of each. -/
def finalizeRepeatedly
    (toolchain : Toolchain ω)
    (circumstances : Circumstances) :
    Nat → BuildCommand ω → List (Option Failure) × BuildCommand ω
  | 0, command => ([], command)
  | times + 1, command =>
      let (failure, finalized) := command.finalize toolchain circumstances
      let (failures, final) :=
        finalizeRepeatedly toolchain circumstances times finalized
      (failure :: failures, final)

end BuildCommand

/-- What the package says of itself wherever it is set up. -/
structure Metadata where
  name : String
  languageRequirement : String
  license : String
  description : String
  descriptionType : String
  classifiers : List String
  packages : List String
  packageData : List (String × List String)
  requirements : List String
  optionalRequirements : List (String × List String)
  commands : List String
  deriving Repr, DecidableEq

/-- The package's own metadata. -/
def metadata : Metadata where
  name := "lrdriver"
  languageRequirement := ">=3.7.0"
  license := "MIT"
  description :=
    "A table-driven LR(1) shift-reduce parser driver with observer " ++
      "notifications for semantic passes."
  descriptionType := "text/x-rst"
  classifiers :=
    ["Development Status :: 5 - Production/Stable",
     "Intended Audience :: Developers",
     "License :: OSI Approved :: MIT License",
     "Operating System :: OS Independent",
     "Programming Language :: Python :: 3",
     "Topic :: Software Development :: Compilers"]
  packages := ["lrdriver", "lrdriver.tests", "lrdriver.tests.specs"]
  packageData := [("lrdriver", ["py.typed"])]
  requirements := ["mypy_extensions"]
  optionalRequirements := [("test", ["flake8", compilerRequirement])]
  commands := ["build_ext"]

/-- What setting up the package comes to. -/
structure Setup where
  version : String
  requirements : List String
  extensions : List Extension
  deriving Repr, DecidableEq

/-- Set up the package, given the content of its version file. -/
def setup
    (compiled : Bool)
    (versionFile : String) :
    Except Failure Setup :=
  match version? versionFile.toList with
  | none => .error .noVersion
  | some version =>
      .ok ⟨String.ofList version, setupRequirements compiled,
        declaredExtensions compiled⟩

end ShiftReduce.Packaging
