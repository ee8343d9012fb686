import TypeBindings.Json.Reader.Record
import TypeBindings.Target
import TypeBindings.Wire.Read

/-!
# Options as JSON

Here names are taken exactly as they are written: other cases and aliases are no names.
-/

namespace TypeBindings

open Json (Reader)
open Json.Reader (record nullable choice)

def Target.toJson (target : Target) : Json :=
  .str target.name

def Target.read : Reader Target :=
  choice (Target.all.map fun target => (target.name, target))

namespace ComponentPolicy

def toJson (policy : ComponentPolicy) : Json :=
  .str policy.name

def read : Reader ComponentPolicy :=
  choice (all.map fun policy => (policy.name, policy))

/-- The options of a generator, of which the policy is the only one. -/
def optionsJson (policy : ComponentPolicy) : Json :=
  .obj [("componentPolicy", policy.toJson)]

def readOptions : Reader ComponentPolicy :=
  record "EmitOptions" [.of "componentPolicy" id (fun _ policy => some policy) read] none
    fun policy => .ok (policy.getD .usual)

end ComponentPolicy

end TypeBindings
