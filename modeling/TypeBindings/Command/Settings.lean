import TypeBindings.Command.Error

/-!
# Settings of a generation

Each setting comes from the arguments if they give it, else from the configuration, else from its default.
-/

namespace TypeBindings

/-- Where a type system comes from. -/
inductive Source where
  | file (path : Path)
  | builtin (name : String)
deriving DecidableEq, Repr

/-- What the command line says about a generation. -/
structure GenerateArguments where
  input : Option Path := none
  builtin : Option String := none
  output : Option Path := none
  targets : List String := []
  policy : Option String := none
  config : Option Path := none
deriving DecidableEq, Repr

structure Settings where
  source : Source
  output : Path
  targets : List Target
  policy : ComponentPolicy
deriving DecidableEq, Repr

namespace Settings

/-- The output directory when none is given. -/
def defaultOutput : Path := ⟨"generated"⟩

/-- A built-in system comes before an input that is named, and that before the one of the configuration. -/
def source? (args : GenerateArguments) (config : Config) : Option Source :=
  (args.builtin.map Source.builtin).or ((args.input.or config.input).map Source.file)

/-- The targets that are named, or those of the configuration, or all. -/
def chooseTargets (names : List String) (config : Config) : Except GenerateError (List Target) :=
  if names.isEmpty then .ok (config.targets.getD Target.all) else names.mapM Target.parse

def choosePolicy (name : Option String) (config : Config) : Except GenerateError ComponentPolicy :=
  match name with
  | some name => ComponentPolicy.parse name
  | none => .ok (config.policy.getD .usual)

/-- The settings given by arguments and a configuration. -/
def ofConfig (args : GenerateArguments) (config : Config) : Except CommandError Settings := do
  let source ← (source? args config).elim (.error .noSource) .ok
  let targets ← (chooseTargets args.targets config).mapError .generate
  let policy ← (choosePolicy args.policy config).mapError .generate
  return {
    source
    output := (args.output.or config.output).getD defaultOutput
    targets := distinct targets
    policy }

/-- The settings given by arguments in a working directory. -/
def resolve (disk : Disk) (args : GenerateArguments) (directory : Path) : Except CommandError Settings := do
  let config ← (Config.discover disk args.config directory).mapError .config
  ofConfig args config

end Settings

end TypeBindings
