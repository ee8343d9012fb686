import TypeBindings.Definition

/-!
# Type systems

A type system is a list of definitions in one package. `TypeSystem.ofDefinitions` marks the records that some other
union lists as a component; marks that are there already stay.
-/

namespace TypeBindings

structure TypeSystem where
  package : Option String
  definitions : List Definition
deriving DecidableEq, Repr

namespace TypeSystem

/-- The names that the unions list as components, a union's own name not counted. -/
def listedNames (definitions : List Definition) : List String :=
  definitions.flatMap fun d => d.components.filter (· ≠ d.name)

/-- Marks a record as a mere component if its name is among the given ones. -/
def mark (listed : List String) (d : Definition) : Definition :=
  match d.body with
  | .record r => if d.name ∈ listed then { d with body := .record { r with componentOnly := true } } else d
  | _ => d

/-- The type system of the given definitions. -/
def ofDefinitions (package : Option String) (definitions : List Definition) : TypeSystem :=
  ⟨package, definitions.map (mark (listedNames definitions))⟩

/-- The place of the first definition with a name. -/
def index? (system : TypeSystem) (name : String) : Option Nat :=
  system.definitions.findIdx? (·.name = name)

/-- The first definition with a name. -/
def find? (system : TypeSystem) (name : String) : Option Definition :=
  system.definitions.find? (·.name = name)

/-- Whether a definition is a union of another name that lists `name`. -/
def lists (name : String) (d : Definition) : Bool :=
  d.name ≠ name && d.components.contains name

/-- The place of the first union that lists a name as a component. -/
def unionIndex? (system : TypeSystem) (name : String) : Option Nat :=
  system.definitions.findIdx? (lists name)

/-- The first union that lists a name as a component. -/
def unionOf? (system : TypeSystem) (name : String) : Option Definition :=
  system.definitions.find? (lists name)

end TypeSystem

end TypeBindings
