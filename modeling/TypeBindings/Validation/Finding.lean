import TypeBindings.Diagnostic

/-!
# Findings

A finding is an offence against one of the rules, at a place in a type system. `Finding.diagnostic` puts it into words.
-/

namespace TypeBindings

/-- A place in a type system: a definition by its number, and a part of it. -/
inductive Site where
  | typeName (type : Nat)
  | parent (type : Nat)
  | propertyName (type property : Nat)
  | propertyShape (type property : Nat)
  | value (type n : Nat)
deriving DecidableEq, Repr

/-- The path of a place in the document of the type system. -/
def Site.path : Site → String
  | .typeName type => "$.types[" ++ toString type ++ "].name"
  | .parent type => "$.types[" ++ toString type ++ "].parentType"
  | .propertyName type property =>
    "$.types[" ++ toString type ++ "].properties[" ++ toString property ++ "].name"
  | .propertyShape type property =>
    "$.types[" ++ toString type ++ "].properties[" ++ toString property ++ "].type"
  | .value type n => "$.types[" ++ toString type ++ "].enumValues[" ++ toString n ++ "]"

/-- What a name is given to. -/
inductive Named where
  | type
  | property
  | value
deriving DecidableEq, Repr

def Named.title : Named → String
  | .type => "Type name"
  | .property => "Property name"
  | .value => "Enum member"

inductive Offence where
  /-- The name is defined before, first at the given place. -/
  | duplicateType (name : String) (first : Nat)
  | undefinedReference (type property name : String)
  | undefinedParent (type parent : String)
  | emptyUnion (union : String)
  | undefinedComponent (union component : String)
  | nestedUnion (union component : String)
  | unknownKind (type property : String)
  | badName (named : Named) (name : String)
deriving DecidableEq, Repr

namespace Offence

def code : Offence → String
  | .duplicateType _ _ => "E_DUPLICATE_TYPE"
  | .undefinedReference _ _ _ => "W_UNRESOLVED_REF"
  | .undefinedParent _ _ => "W_UNRESOLVED_PARENT"
  | .emptyUnion _ => "W_EMPTY_UNION"
  | .undefinedComponent _ _ => "W_UNKNOWN_COMPONENT"
  | .nestedUnion _ _ => "W_NESTED_UNION"
  | .unknownKind _ _ => "W_UNKNOWN_KIND"
  | .badName _ _ => "W_INVALID_IDENTIFIER"

/-- Only a name that is defined twice is an error. -/
def severity : Offence → Severity
  | .duplicateType _ _ => .error
  | _ => .warning

def message : Offence → String
  | .duplicateType name first => "Type '" ++ name ++ "' is already defined at $.types[" ++ toString first ++ "]"
  | .undefinedReference type property name =>
    "Property '" ++ type ++ "." ++ property ++ "' references undefined type '" ++ name ++ "'"
  | .undefinedParent type parent => "Type '" ++ type ++ "' extends undefined type '" ++ parent ++ "'"
  | .emptyUnion union => "Union '" ++ union ++ "' has no components"
  | .undefinedComponent union component =>
    "Union '" ++ union ++ "' lists undefined component '" ++ component ++ "'"
  | .nestedUnion union component =>
    "Union '" ++ union ++ "' lists union '" ++ component ++ "'; nested unions are not flattened"
  | .unknownKind type property => "Property '" ++ type ++ "." ++ property ++ "' has an unrecognized type kind"
  | .badName named name => named.title ++ " '" ++ name ++ "' is not a valid identifier"

/-- What can be done about it. -/
def suggestion : Offence → Option String
  | .duplicateType _ _ => some "Rename or remove one of the definitions"
  | .undefinedReference _ _ name => some ("Define '" ++ name ++ "' or make sure the target language provides it")
  | .undefinedParent _ _ => none
  | .emptyUnion _ => some "List the components as 'A | B' in parentType"
  | .undefinedComponent _ _ => none
  | .nestedUnion _ component => some ("List the components of '" ++ component ++ "' directly")
  | .unknownKind _ _ => some "Use one of: primitive, reference, array, map"
  | .badName _ _ => some "Use letters, digits and '_' only, not starting with a digit"

end Offence

structure Finding where
  offence : Offence
  site : Site
deriving DecidableEq, Repr

/-- The finding in words, about the given file. -/
def Finding.diagnostic (file : String) (finding : Finding) : Diagnostic where
  code := finding.offence.code
  severity := finding.offence.severity
  message := finding.offence.message
  file := file
  path := finding.site.path
  suggestion := finding.offence.suggestion

end TypeBindings
