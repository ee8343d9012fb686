import TypeBindings.Json.Fault
import TypeBindings.Wire.Encode

/-!
# Type systems from JSON values

These functions read a definition back from its flat form as a value. The shape of a property is tagged by its `kind`;
a kind that is not known gives the unknown shape, whatever else stands beside it.
-/

namespace TypeBindings

namespace Json

variable {α : Type}

def asText : Json → Except ShapeError String
  | .str s => .ok s
  | other => .error (.invalidType (.ofJson other) "a string")

def asBool : Json → Except ShapeError Bool
  | .bool b => .ok b
  | other => .error (.invalidType (.ofJson other) "a boolean")

/-- Null, or what `decode` takes. -/
def asNullable (decode : Json → Except ShapeError α) : Json → Except ShapeError (Option α)
  | .null => .ok none
  | other => some <$> decode other

def asList (decode : Json → Except ShapeError α) : Json → Except ShapeError (List α)
  | .arr items => items.mapM decode
  | other => .error (.invalidType (.ofJson other) "a sequence")

/-- The members of an object that stands for a record. -/
def asMembers (name : String) : Json → Except ShapeError (List (String × Json))
  | .obj members => .ok members
  | other => .error (.invalidType (.ofJson other) ("struct " ++ name))

/-- The value of a member that must be there. -/
def needed (key : String) (decode : Json → Except ShapeError α) (members : List (String × Json)) :
    Except ShapeError α :=
  match members.lookup key with
  | some value => decode value
  | none => .error (.missingField key)

/-- The value of a member, or `absent` if there is none. -/
def given (key : String) (absent : α) (decode : Json → Except ShapeError α) (members : List (String × Json)) :
    Except ShapeError α :=
  match members.lookup key with
  | some value => decode value
  | none => .ok absent

end Json

open Json (ShapeError)

namespace Shape

/-- The kinds of shapes, as tags on the wire. -/
inductive Tag where
  | primitive
  | reference
  | array
  | map
  | unknown
deriving DecidableEq, Repr

namespace Tag

def ofName : String → Tag
  | "primitive" => .primitive
  | "reference" => .reference
  | "array" => .array
  | "map" => .map
  | _ => .unknown

/-- The kinds in the order in which they are numbered. -/
def ofNumber : Nat → Tag
  | 0 => .primitive
  | 1 => .reference
  | 2 => .array
  | 3 => .map
  | _ => .unknown

/-- A tag inside another shape is a name or a number. -/
def ofJson : Json → Except ShapeError Tag
  | .str name => .ok (ofName name)
  | .num (.int (.ofNat n)) => .ok (ofNumber n)
  | other => .error (.invalidType (.ofJson other) "variant identifier")

/-- The variant of a tag, as it is called in messages. -/
def title : Tag → String
  | .primitive => "PropertyType::Primitive"
  | .reference => "PropertyType::Reference"
  | .array => "PropertyType::Array"
  | .map => "PropertyType::Map"
  | .unknown => "PropertyType::Unknown"

end Tag

/-- The value of the member with a key, which may not come twice. -/
def single {α : Type} (key : String) (decode : Json → Except ShapeError α) :
    List (String × Json) → Except ShapeError α
  | [] => .error (.missingField key)
  | (k, value) :: rest =>
    if k = key then do
      let result ← decode value
      if (rest.lookup key).isSome then .error (.duplicateField key) else .ok result
    else single key decode rest

/-- Checks that a shape written as a list has exactly one part after its tag. -/
def onePart {α : Type} (tag : Tag) (parts : List Json) (first : Option (Except ShapeError α)) : Except ShapeError α :=
  match first with
  | none => .error (.invalidLength 0 ("struct variant " ++ tag.title ++ " with 1 element"))
  | some result => do
    let value ← result
    if parts.length = 1 then .ok value else .error (.invalidLength parts.length "1 element in sequence")

mutual

/-- The shape of a value that is an object with a tag, or a list of a tag and its part. -/
def ofJson : Json → Except ShapeError Shape
  | .obj members => do
    let tag ← single "kind" Tag.ofJson members
    ofMembers tag members
  | .arr [] => .error (.missingField "kind")
  | .arr (head :: parts) => do
    let tag ← Tag.ofJson head
    ofParts tag parts
  | other => .error (.invalidType (.ofJson other) "internally tagged enum PropertyType")

/-- The shape of a tag and the members beside it. -/
def ofMembers (tag : Tag) (members : List (String × Json)) : Except ShapeError Shape :=
  match tag with
  | .primitive => primitive <$> single "typeName" Json.asText members
  | .reference => reference <$> single "typeName" Json.asText members
  | .array => array <$> inner "elementType" members
  | .map => map <$> inner "valueType" members
  | .unknown => .ok .unknown

/-- The shape in the member with a key, which may not come twice. -/
def inner (key : String) : List (String × Json) → Except ShapeError Shape
  | [] => .error (.missingField key)
  | (k, value) :: rest =>
    if k = key then do
      let result ← ofJson value
      if (rest.lookup key).isSome then .error (.duplicateField key) else .ok result
    else inner key rest

/-- The shape of a tag and the parts after it in a list. -/
def ofParts (tag : Tag) (parts : List Json) : Except ShapeError Shape :=
  match tag with
  | .primitive => primitive <$> onePart tag parts (parts.head?.map Json.asText)
  | .reference => reference <$> onePart tag parts (parts.head?.map Json.asText)
  | .array => array <$> onePart tag parts (firstPart parts)
  | .map => map <$> onePart tag parts (firstPart parts)
  | .unknown =>
    if parts.isEmpty then .ok .unknown else .error (.invalidLength parts.length "0 elements in sequence")

def firstPart : List Json → Option (Except ShapeError Shape)
  | [] => none
  | part :: _ => some (ofJson part)

end

end Shape

open Json (asText asBool asNullable asList asMembers needed given)

def Property.ofJson (value : Json) : Except ShapeError Property := do
  let members ← asMembers "PropertyDefinition" value
  return {
    name := ← needed "name" asText members
    shape := ← needed "type" Shape.ofJson members
    required := ← needed "isRequired" asBool members
    description := ← given "description" none (asNullable asText) members }

def FlatDefinition.ofJson (value : Json) : Except ShapeError FlatDefinition := do
  let members ← asMembers "RawTypeDefinition" value
  return {
    name := ← needed "name" asText members
    properties := ← given "properties" [] (asList Property.ofJson) members
    parentType := ← given "parentType" none (asNullable asText) members
    description := ← given "description" none (asNullable asText) members
    isEnum := ← given "isEnum" false asBool members
    enumValues := ← given "enumValues" [] (asList asText) members
    isUnionType := ← given "isUnionType" false asBool members
    isUnionComponentOnly := ← given "isUnionComponentOnly" false asBool members }

def Definition.ofJson (value : Json) : Except ShapeError Definition :=
  FlatDefinition.toDefinition <$> FlatDefinition.ofJson value

def TypeSystem.ofJson (value : Json) : Except ShapeError TypeSystem := do
  let members ← asMembers "RawTypeSystem" value
  let package ← given "namespace" none (asNullable asText) members
  let definitions ← given "types" [] (asList Definition.ofJson) members
  return .ofDefinitions package definitions

end TypeBindings
