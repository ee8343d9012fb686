import TypeBindings.Language.CSharp
import TypeBindings.Language.Java
import TypeBindings.Language.Kotlin
import TypeBindings.Language.TypeScript

/-!
# Backends and their registry

A backend turns a type system into the files of one target. A registry holds at most one backend for each target, in
the order in which the targets were first registered.
-/

namespace TypeBindings

structure Backend where
  target : Target
  layout : Layout
  generate : TypeSystem → ComponentPolicy → FileSet

/-- The backend in words. -/
def Backend.summary (backend : Backend) : String :=
  "Backend \x7b target: " ++ backend.target.title ++ ", layout: " ++ backend.layout.title ++ " \x7d"

/-- Why generation cannot begin. -/
inductive GenerateError where
  | unknownTarget (name : String)
  | unknownPolicy (name : String)
  | unregistered (target : Target)
deriving DecidableEq, Repr

def GenerateError.message : GenerateError → String
  | .unknownTarget name =>
    "unknown target '" ++ name ++ "' (expected one of: " ++ Text.joinWith ", " (Target.all.map Target.name) ++ ")"
  | .unknownPolicy name =>
    "unknown component policy '" ++ name ++ "' (expected one of: " ++
      Text.joinWith ", " (ComponentPolicy.all.map ComponentPolicy.name) ++ ")"
  | .unregistered target => "no backend registered for target " ++ target.name

def Target.parse (name : String) : Except GenerateError Target :=
  (Target.ofName? name).elim (.error (.unknownTarget name)) .ok

def ComponentPolicy.parse (name : String) : Except GenerateError ComponentPolicy :=
  (ComponentPolicy.ofName? name).elim (.error (.unknownPolicy name)) .ok

/-- A target as a language. -/
def Target.language : Target → Language
  | .typeScript => TypeScript.language
  | .kotlin => Kotlin.language
  | .java => Java.language
  | .cSharp => CSharp.language

/-- What a definition becomes in a target. -/
def Target.declaration : Target → TypeSystem → Definition → Declaration
  | .typeScript => TypeScript.declaration
  | .kotlin => Kotlin.declaration
  | .java => Java.declaration
  | .cSharp => CSharp.declaration

/-- The files of a target. -/
def Target.generate : Target → TypeSystem → ComponentPolicy → FileSet
  | .typeScript => TypeScript.generate
  | .kotlin => Kotlin.generate
  | .java => Java.generate
  | .cSharp => CSharp.generate

def Target.layout : Target → Layout
  | .java => .perType
  | .typeScript | .kotlin | .cSharp => .combined

/-- The built-in backend of a target. -/
def Target.backend (target : Target) : Backend :=
  ⟨target, target.layout, target.generate⟩

structure Registry where
  backends : List Backend := []

namespace Registry

def builtin : Registry := ⟨Target.all.map Target.backend⟩

/-- Puts a backend in the place of the one for its target, or at the end. -/
def place (backend : Backend) : List Backend → List Backend
  | [] => [backend]
  | b :: rest => if b.target = backend.target then backend :: rest else b :: place backend rest

def find? (registry : Registry) (target : Target) : Option Backend :=
  registry.backends.find? (·.target = target)

/-- Registers a backend and gives the one that it replaces. -/
def register (registry : Registry) (backend : Backend) : Option Backend × Registry :=
  (registry.find? backend.target, ⟨place backend registry.backends⟩)

def get (registry : Registry) (target : Target) : Except GenerateError Backend :=
  (registry.find? target).elim (.error (.unregistered target)) .ok

def targets (registry : Registry) : List Target :=
  registry.backends.map Backend.target

/-- The files of one target. -/
def generate (registry : Registry) (policy : ComponentPolicy) (target : Target) (system : TypeSystem) :
    Except GenerateError FileSet := do
  let backend ← registry.get target
  return backend.generate system policy

/-- The files of several targets in the order given. -/
def generateAll (registry : Registry) (policy : ComponentPolicy) (targets : List Target) (system : TypeSystem) :
    Except GenerateError (List (Target × FileSet)) :=
  targets.mapM fun target => do return (target, ← registry.generate policy target system)

end Registry

end TypeBindings
