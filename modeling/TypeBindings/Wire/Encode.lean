import TypeBindings.Diagnostic
import TypeBindings.Json.Basic
import TypeBindings.Text.Concat
import TypeBindings.TypeSystem

/-!
# Type systems as JSON values

On the wire a definition is one flat object: flags tell enumerations and unions from records, and the components of a
union are written with bars between them in the place of a record's parent. Empty lists, absent texts and flags that
are false are left out. Members are written in the order of their keys.
-/

namespace TypeBindings

/-- The flat form of a definition. -/
structure FlatDefinition where
  name : String
  properties : List Property := []
  parentType : Option String := none
  description : Option String := none
  isEnum : Bool := false
  enumValues : List String := []
  isUnionType : Bool := false
  isUnionComponentOnly : Bool := false

namespace FlatDefinition

/-- The definition of a flat form. The mark of an enumeration wins over that of a union, and only a record can be a
mere component. -/
def toDefinition (flat : FlatDefinition) : Definition :=
  let body : Body :=
    if flat.isEnum then .enumeration flat.enumValues
    else if flat.isUnionType then .union ((flat.parentType.map componentNames).getD [])
    else .record
      { properties := flat.properties, parent := flat.parentType, componentOnly := flat.isUnionComponentOnly }
  ⟨flat.name, body, flat.description⟩

def ofDefinition (d : Definition) : FlatDefinition :=
  match d.body with
  | .record r =>
    { name := d.name, description := d.description, properties := r.properties, parentType := r.parent,
      isUnionComponentOnly := r.componentOnly }
  | .enumeration values => { name := d.name, description := d.description, isEnum := true, enumValues := values }
  | .union components =>
    { name := d.name, description := d.description, isUnionType := true,
      parentType := if components.isEmpty then none else some (Text.joinWith " | " components) }

end FlatDefinition

open Json (optional flag)

def Shape.toJson : Shape → Json
  | .primitive name => .obj [("kind", .str "primitive"), ("typeName", .str name)]
  | .reference name => .obj [("kind", .str "reference"), ("typeName", .str name)]
  | .array element => .obj [("elementType", element.toJson), ("kind", .str "array")]
  | .map value => .obj [("kind", .str "map"), ("valueType", value.toJson)]
  | .unknown => .obj [("kind", .str "unknown")]

def Property.toJson (p : Property) : Json :=
  .obj (optional "description" (p.description.map .str) ++
    [("isRequired", .bool p.required), ("name", .str p.name), ("type", p.shape.toJson)])

/-- A member that is there only when the list is not empty. -/
def Json.nonEmpty (key : String) (items : List Json) : List (String × Json) :=
  if items.isEmpty then [] else [(key, .arr items)]

def FlatDefinition.toJson (flat : FlatDefinition) : Json :=
  .obj (optional "description" (flat.description.map .str) ++
    Json.nonEmpty "enumValues" (flat.enumValues.map .str) ++
    flag "isEnum" flat.isEnum ++
    flag "isUnionComponentOnly" flat.isUnionComponentOnly ++
    flag "isUnionType" flat.isUnionType ++
    [("name", .str flat.name)] ++
    optional "parentType" (flat.parentType.map .str) ++
    Json.nonEmpty "properties" (flat.properties.map Property.toJson))

def Definition.toJson (d : Definition) : Json :=
  (FlatDefinition.ofDefinition d).toJson

def TypeSystem.toJson (system : TypeSystem) : Json :=
  .obj (optional "namespace" (system.package.map .str) ++
    [("types", .arr (system.definitions.map Definition.toJson))])

def Diagnostic.toJson (d : Diagnostic) : Json :=
  .obj ([("code", .str d.code), ("file", .str d.file), ("message", .str d.message), ("path", .str d.path),
    ("severity", .str d.severity.name)] ++ optional "suggestion" (d.suggestion.map .str))

def Report.toJson (report : Report) : Json :=
  .obj [("errors", .arr (report.entries.map Diagnostic.toJson)), ("ok", .bool report.ok)]

end TypeBindings
