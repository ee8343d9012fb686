import TypeBindings.Text.Ascii

/-!
# Target languages and options
-/

namespace TypeBindings

inductive Target where
  | typeScript
  | kotlin
  | java
  | cSharp
deriving DecidableEq, Repr

namespace Target

/-- All targets in their usual order. -/
def all : List Target := [.typeScript, .kotlin, .java, .cSharp]

def name : Target → String
  | .typeScript => "typescript"
  | .kotlin => "kotlin"
  | .java => "java"
  | .cSharp => "csharp"

/-- The name of the language as its own users write it. -/
def title : Target → String
  | .typeScript => "TypeScript"
  | .kotlin => "Kotlin"
  | .java => "Java"
  | .cSharp => "CSharp"

/-- Other names that are understood. -/
def aliases : Target → List String
  | .typeScript => ["ts"]
  | .kotlin => ["kt"]
  | .java => []
  | .cSharp => ["cs", "c#"]

/-- The target of a name, in which capital and small letters count as the same. -/
def ofName? (s : String) : Option Target :=
  all.find? fun target => (target.name :: target.aliases).contains (Text.lower s)

end Target

/-- How declarations are spread over files. -/
inductive Layout where
  | combined
  | perType
deriving DecidableEq, Repr

namespace Layout

def description : Layout → String
  | .combined => "single file"
  | .perType => "one file per type"

def title : Layout → String
  | .combined => "Combined"
  | .perType => "PerType"

end Layout

/-- What happens to records that are there only as a component of a union. -/
inductive ComponentPolicy where
  | usual
  | suppress
  | emit
deriving DecidableEq, Repr

namespace ComponentPolicy

def all : List ComponentPolicy := [.usual, .suppress, .emit]

def name : ComponentPolicy → String
  | .usual => "default"
  | .suppress => "suppress"
  | .emit => "emit"

/-- The policy of a name, in which capital and small letters count as the same. -/
def ofName? (s : String) : Option ComponentPolicy :=
  all.find? (·.name = Text.lower s)

/-- Whether such records are left out, given what is usual for the language. -/
def suppresses : ComponentPolicy → (usually : Bool) → Bool
  | .usual, usually => usually
  | .suppress, _ => true
  | .emit, _ => false

end ComponentPolicy

end TypeBindings
