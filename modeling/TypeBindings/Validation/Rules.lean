import TypeBindings.NameIndex
import TypeBindings.Validation.Finding

/-!
# The rules of validation

Each rule lists its findings in the order of the definitions; duplicates are grouped by name. `validate` applies the
rules one after the other.
-/

namespace TypeBindings.TypeSystem

/-- Every name is defined once. -/
def duplicateTypes (system : TypeSystem) : List Finding :=
  (NameIndex.ofSystem system).duplicates.flatMap fun entry =>
    entry.others.map fun place => ⟨.duplicateType entry.name entry.first, .typeName place⟩

/-- The references in the shape of a property that name no definition. -/
def undefinedReferences (index : NameIndex) (type : Nat) (d : Definition) (property : Nat) (p : Property) :
    List Finding :=
  (p.shape.references.filter fun name => !index.contains name).map fun name =>
    ⟨.undefinedReference d.name p.name name, .propertyShape type property⟩

/-- The parent of a record if it names no definition. -/
def undefinedParent (index : NameIndex) (type : Nat) (d : Definition) : List Finding :=
  match d.base? with
  | some parent => if index.contains parent then [] else [⟨.undefinedParent d.name parent, .parent type⟩]
  | none => []

/-- References and parents name definitions of the system. -/
def undefinedNames (system : TypeSystem) : List Finding :=
  let index := NameIndex.ofSystem system
  system.definitions.zipIdx.flatMap fun (d, type) =>
    (d.properties.zipIdx.flatMap fun (p, property) => undefinedReferences index type d property p) ++
      undefinedParent index type d

/-- What is wrong with a component of a union. -/
def componentFindings (system : TypeSystem) (index : NameIndex) (type : Nat) (union component : String) :
    List Finding :=
  match index.resolve? system component with
  | none => [⟨.undefinedComponent union component, .parent type⟩]
  | some d => if d.isUnion then [⟨.nestedUnion union component, .parent type⟩] else []

/-- A union has components, and they are definitions of the system that are no unions. -/
def unionFindings (system : TypeSystem) : List Finding :=
  let index := NameIndex.ofSystem system
  system.definitions.zipIdx.flatMap fun (d, type) =>
    match d.body with
    | .union [] => [⟨.emptyUnion d.name, .parent type⟩]
    | .union components => components.flatMap (componentFindings system index type d.name)
    | _ => []

/-- The shapes of properties are known. -/
def unknownKinds (system : TypeSystem) : List Finding :=
  system.definitions.zipIdx.flatMap fun (d, type) =>
    d.properties.zipIdx.flatMap fun (p, property) =>
      if p.shape.hasUnknown then [⟨.unknownKind d.name p.name, .propertyShape type property⟩] else []

/-- A name that is no identifier. -/
def badName (named : Named) (name : String) (site : Site) : List Finding :=
  if Text.isWord name then [] else [⟨.badName named name, site⟩]

/-- Names are identifiers. -/
def badNames (system : TypeSystem) : List Finding :=
  system.definitions.zipIdx.flatMap fun (d, type) =>
    badName .type d.name (.typeName type) ++
      (d.properties.zipIdx.flatMap fun (p, property) => badName .property p.name (.propertyName type property)) ++
      d.values.zipIdx.flatMap fun (value, n) => badName .value value (.value type n)

/-- All findings, rule by rule. -/
def findings (system : TypeSystem) : List Finding :=
  system.duplicateTypes ++ system.undefinedNames ++ system.unionFindings ++ system.unknownKinds ++ system.badNames

/-- The report on a type system that was read from the given file. -/
def validate (system : TypeSystem) (file : String) : Report :=
  .ofEntries (system.findings.map (Finding.diagnostic file))

end TypeBindings.TypeSystem
