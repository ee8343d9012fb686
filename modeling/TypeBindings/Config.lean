import TypeBindings.Disk.Basic
import TypeBindings.Wire.Options

/-!
# Configuration files

A configuration may give an input, an output directory, targets and a policy. Its paths are seen from the directory of
its own file. The file is named, or else it is looked for under its usual name in the working directory.
-/

namespace TypeBindings

open Json (Reader)
open Json.Reader (record text nullable sequence)

structure Config where
  input : Option Path := none
  output : Option Path := none
  targets : Option (List Target) := none
  policy : Option ComponentPolicy := none
deriving DecidableEq, Repr

inductive ConfigError where
  | unreadable (path : Path) (error : FileError)
  | invalid (path : Path) (fault : Json.Fault)

def ConfigError.message : ConfigError → String
  | .unreadable path error => "Failed to read config '" ++ path.text ++ "': " ++ error.message
  | .invalid path fault => "Invalid config '" ++ path.text ++ "': " ++ fault.message

namespace Config

/-- The name under which a configuration is looked for. -/
def usualName : Path := ⟨"typegen.config.json"⟩

/-! ## JSON -/

structure Draft where
  input : Option (Option Path) := none
  output : Option (Option Path) := none
  targets : Option (Option (List Target)) := none
  policy : Option (Option ComponentPolicy) := none

def readPath : Reader Path :=
  Path.mk <$> text "path string"

/-- Reads a configuration, which has no other fields than its own. -/
def read : Reader Config :=
  record "Config"
    [.of "input" Draft.input (fun d x => { d with input := some x }) (nullable readPath),
     .of "output" Draft.output (fun d x => { d with output := some x }) (nullable readPath),
     .of "targets" Draft.targets (fun d x => { d with targets := some x }) (nullable (sequence Target.read)),
     .of "componentPolicy" Draft.policy (fun d x => { d with policy := some x }) (nullable ComponentPolicy.read)]
    {}
    (fun d => .ok {
      input := d.input.join
      output := d.output.join
      targets := d.targets.join
      policy := d.policy.join })
    true

def toJson (config : Config) : Json :=
  .obj (Json.optional "input" (config.input.map fun path => .str path.text) ++
    Json.optional "output" (config.output.map fun path => .str path.text) ++
    Json.optional "targets" (config.targets.map fun targets => .arr (targets.map Target.toJson)) ++
    Json.optional "componentPolicy" (config.policy.map ComponentPolicy.toJson))

/-! ## Files -/

/-- The configuration with its paths seen from a directory. -/
def below (directory : Path) (config : Config) : Config :=
  { config with input := config.input.map directory.join, output := config.output.map directory.join }

def load (disk : Disk) (path : Path) : Except ConfigError Config := do
  let content ← (disk.readText path).mapError (.unreadable path)
  let config ← (read.run content).mapError (.invalid path)
  return config.below (path.parent?.getD ⟨""⟩)

/-- The configuration that applies in a working directory. -/
def discover (disk : Disk) (named : Option Path) (directory : Path) : Except ConfigError Config :=
  match named with
  | some path => load disk path
  | none =>
    let path := directory.join usualName
    if disk.isFile path then load disk path else .ok {}

end Config

end TypeBindings
