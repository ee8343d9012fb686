import TypeBindings.Json.Schema.OfJson

/-!
# The schema of the wire form

`wireSchema` is the schema that documents are checked against, `publishedSchema` the same schema as a JSON document
with its annotations. `ofJson_publishedSchema` says that reading the published document gives back the schema.

The schema asks nothing of a shape beyond a `kind` that is a text, so that kinds it does not know pass.
-/

namespace TypeBindings

open Json (Schema)
open Json.Schema (typed arrayOf objectOf refer)

namespace Wire

/-! ## The schema -/

def textOrNull : Schema := typed [.string, .null]

/-- The reference to a named schema. -/
def referenceTo (name : String) : String := "#/definitions/" ++ name

def shapeSchema : Schema :=
  objectOf
    [("elementType", refer (referenceTo "PropertyType")),
     ("kind", typed [.string]),
     ("typeName", typed [.string]),
     ("valueType", refer (referenceTo "PropertyType"))]
    ["kind"]

def propertySchema : Schema :=
  objectOf
    [("description", textOrNull),
     ("isRequired", typed [.boolean]),
     ("name", typed [.string]),
     ("type", refer (referenceTo "PropertyType"))]
    ["isRequired", "name", "type"]

def definitionSchema : Schema :=
  objectOf
    [("description", textOrNull),
     ("enumValues", arrayOf (typed [.string])),
     ("isEnum", typed [.boolean]),
     ("isUnionComponentOnly", typed [.boolean]),
     ("isUnionType", typed [.boolean]),
     ("name", typed [.string]),
     ("parentType", textOrNull),
     ("properties", arrayOf (refer (referenceTo "PropertyDefinition")))]
    ["name"]

def systemSchema : Schema :=
  objectOf
    [("namespace", textOrNull),
     ("types", arrayOf (refer (referenceTo "TypeDefinition")))]
    []

end Wire

/-- The schema of a type system on the wire. -/
def wireSchema : Schema.Document :=
  ⟨Wire.systemSchema,
   [(Wire.referenceTo "TypeDefinition", Wire.definitionSchema),
    (Wire.referenceTo "PropertyDefinition", Wire.propertySchema),
    (Wire.referenceTo "PropertyType", Wire.shapeSchema)]⟩

namespace Wire

/-! ## The published document -/

/-- A description, to stand before the rules of a schema. -/
def note (text : String) : List (String × Json) := [("description", .str text)]

def typeRule (kind : String) : List (String × Json) := [("type", .str kind)]

def textOrNullRule : List (String × Json) := [("type", .arr [.str "string", .str "null"])]

def referenceRule (name : String) : Json := .obj [("$ref", .str (referenceTo name))]

def arrayRule (item : Json) : List (String × Json) := [("items", item), ("type", .str "array")]

def propertiesRule (properties : List (String × Json)) : List (String × Json) := [("properties", .obj properties)]

def requiredRule (names : List String) : List (String × Json) := [("required", .arr (names.map .str))]

def shapeRules : Json :=
  .obj (propertiesRule
      [("elementType", referenceRule "PropertyType"),
       ("kind", .obj (typeRule "string")),
       ("typeName", .obj (typeRule "string")),
       ("valueType", referenceRule "PropertyType")] ++
    requiredRule ["kind"] ++ typeRule "object")

def propertyRules : Json :=
  .obj (note "A single field of a record type." ++
    propertiesRule
      [("description", .obj textOrNullRule),
       ("isRequired", .obj (note "`false` means the field may be absent" ++ typeRule "boolean")),
       ("name", .obj (note "Field name, emitted verbatim as the serialized name" ++ typeRule "string")),
       ("type", referenceRule "PropertyType")] ++
    requiredRule ["isRequired", "name", "type"] ++ typeRule "object")

def definitionRules : Json :=
  .obj (note "Flag-based wire form of [`TypeDefinition`]." ++
    propertiesRule
      [("description", .obj textOrNullRule),
       ("enumValues", .obj (arrayRule (.obj (typeRule "string")))),
       ("isEnum", .obj (typeRule "boolean")),
       ("isUnionComponentOnly", .obj (typeRule "boolean")),
       ("isUnionType", .obj (typeRule "boolean")),
       ("name", .obj (typeRule "string")),
       ("parentType", .obj (note "Supertype of a record, or the `A | B` component list of a union" ++
         textOrNullRule)),
       ("properties", .obj (arrayRule (referenceRule "PropertyDefinition")))] ++
    requiredRule ["name"] ++ typeRule "object")

end Wire

open Wire in
/-- The schema of the wire form as a JSON document. -/
def publishedSchema : Json :=
  .obj ([("$schema", .str "http://json-schema.org/draft-07/schema#"),
      ("definitions", .obj
        [("PropertyDefinition", propertyRules),
         ("PropertyType", shapeRules),
         ("TypeDefinition", definitionRules)])] ++
    propertiesRule
      [("namespace", .obj (("default", .null) :: textOrNullRule)),
       ("types", .obj (("default", .arr []) :: arrayRule (referenceRule "TypeDefinition")))] ++
    [("title", .str "TypeSystem")] ++ typeRule "object")

theorem ofJson_publishedSchema : Schema.Document.ofJson publishedSchema = .ok wireSchema := by
  have h : (Schema.Document.ofJson publishedSchema).toOption = some wireSchema := by decide +kernel
  cases hr : Schema.Document.ofJson publishedSchema with
  | error error => simp [hr, Except.toOption] at h
  | ok document => simpa [hr, Except.toOption] using h

end TypeBindings
