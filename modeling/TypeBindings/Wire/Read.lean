import TypeBindings.Json.Reader.Record
import TypeBindings.Wire.Decode

/-!
# Type systems from JSON text

These readers take the same flat form straight from a text, without a value in between. They stop at the first thing
that is wrong in the order of the text and refuse a field that is given twice.
-/

namespace TypeBindings

open Json (Reader ShapeError)
open Json.Reader (Field record present text boolean nullable sequence choice)

/-- A field that is stored by `set` and seen by `get`. -/
def Json.Reader.Field.of {σ α : Type} (key : String) (get : σ → Option α) (set : σ → α → σ) (value : Reader α)
    (optional : Bool := true) : Field σ where
  key := key
  filled draft := (get draft).isSome
  read draft := do return set draft (← value)
  optional := optional

namespace Shape

/-- What has been read of a shape: its tag, and all else in reverse order. -/
structure Draft where
  tag : Option Tag := none
  members : List (String × Json) := []

/-- Reads one member of a shape. -/
def readMember (draft : Draft) (key : String) : Reader Draft := do
  if key = "kind" then
    if draft.tag.isSome then Json.Reader.failAfterKey (.duplicateField "kind")
    else
      Json.Reader.colon
      return { draft with tag := some (.ofName (← text "variant identifier")) }
  else
    Json.Reader.colon
    return { draft with members := (key, ← Json.Reader.value) :: draft.members }

def finish (result : Except ShapeError Shape) : Reader Shape :=
  match result with
  | .ok shape => return shape
  | .error error => Json.Reader.failHere (.shape error)

/-- Reads a shape. Its tag is looked at where it stands, and the rest only when all of it has been read. -/
def read : Reader Shape := do
  match ← Json.Reader.peekToken with
  | some '\x7b' =>
    let draft ← Json.Reader.objectMembers readMember {}
    match draft.tag with
    | some tag => finish (ofMembers tag draft.members.reverse)
    | none => finish (.error (.missingField "kind"))
  | some '[' =>
    let (tag, parts) ← Json.Reader.nested do
      if ← Json.Reader.moreItems true then
        let tag := Tag.ofName (← text "variant identifier")
        let parts ← Json.Reader.itemsFrom Json.Reader.value (← MonadReader.read).steps false
        return (some tag, parts)
      else
        Json.Reader.skip
        return (none, [])
    match tag with
    | some tag => finish (ofParts tag parts)
    | none => finish (.error (.missingField "kind"))
  | _ => Json.Reader.unexpected "internally tagged enum PropertyType"

end Shape

namespace Property

structure Draft where
  name : Option String := none
  shape : Option Shape := none
  required : Option Bool := none
  description : Option (Option String) := none

def read : Reader Property :=
  record "PropertyDefinition"
    [.of "name" Draft.name (fun d x => { d with name := some x }) text false,
     .of "type" Draft.shape (fun d x => { d with shape := some x }) Shape.read false,
     .of "isRequired" Draft.required (fun d x => { d with required := some x }) boolean false,
     .of "description" Draft.description (fun d x => { d with description := some x }) (nullable text)]
    {}
    fun d => do
      return {
        name := ← present "name" d.name
        shape := ← present "type" d.shape
        required := ← present "isRequired" d.required
        description := d.description.join }

end Property

namespace FlatDefinition

structure Draft where
  name : Option String := none
  properties : Option (List Property) := none
  parentType : Option (Option String) := none
  description : Option (Option String) := none
  isEnum : Option Bool := none
  enumValues : Option (List String) := none
  isUnionType : Option Bool := none
  isUnionComponentOnly : Option Bool := none

def read : Reader FlatDefinition :=
  record "RawTypeDefinition"
    [.of "name" Draft.name (fun d x => { d with name := some x }) text false,
     .of "properties" Draft.properties (fun d x => { d with properties := some x }) (sequence Property.read),
     .of "parentType" Draft.parentType (fun d x => { d with parentType := some x }) (nullable text),
     .of "description" Draft.description (fun d x => { d with description := some x }) (nullable text),
     .of "isEnum" Draft.isEnum (fun d x => { d with isEnum := some x }) boolean,
     .of "enumValues" Draft.enumValues (fun d x => { d with enumValues := some x }) (sequence text),
     .of "isUnionType" Draft.isUnionType (fun d x => { d with isUnionType := some x }) boolean,
     .of "isUnionComponentOnly" Draft.isUnionComponentOnly (fun d x => { d with isUnionComponentOnly := some x })
       boolean]
    {}
    fun d => do
      return {
        name := ← present "name" d.name
        properties := d.properties.getD []
        parentType := d.parentType.join
        description := d.description.join
        isEnum := d.isEnum.getD false
        enumValues := d.enumValues.getD []
        isUnionType := d.isUnionType.getD false
        isUnionComponentOnly := d.isUnionComponentOnly.getD false }

end FlatDefinition

def Definition.read : Reader Definition :=
  FlatDefinition.toDefinition <$> FlatDefinition.read

namespace TypeSystem

structure Draft where
  package : Option (Option String) := none
  definitions : Option (List Definition) := none

def read : Reader TypeSystem :=
  record "RawTypeSystem"
    [.of "namespace" Draft.package (fun d x => { d with package := some x }) (nullable text),
     .of "types" Draft.definitions (fun d x => { d with definitions := some x }) (sequence Definition.read)]
    {}
    fun d => .ok (.ofDefinitions d.package.join (d.definitions.getD []))

end TypeSystem

def Severity.read : Reader Severity :=
  choice (Severity.all.map fun s => (s.name, s))

namespace Diagnostic

structure Draft where
  code : Option String := none
  severity : Option Severity := none
  message : Option String := none
  file : Option String := none
  path : Option String := none
  suggestion : Option (Option String) := none

def read : Reader Diagnostic :=
  record "ErrorEntry"
    [.of "code" Draft.code (fun d x => { d with code := some x }) text false,
     .of "severity" Draft.severity (fun d x => { d with severity := some x }) Severity.read false,
     .of "message" Draft.message (fun d x => { d with message := some x }) text false,
     .of "file" Draft.file (fun d x => { d with file := some x }) text false,
     .of "path" Draft.path (fun d x => { d with path := some x }) text false,
     .of "suggestion" Draft.suggestion (fun d x => { d with suggestion := some x }) (nullable text) false]
    {}
    fun d => do
      return {
        code := ← present "code" d.code
        severity := ← present "severity" d.severity
        message := ← present "message" d.message
        file := ← present "file" d.file
        path := ← present "path" d.path
        suggestion := d.suggestion.join }

end Diagnostic

namespace Report

structure Draft where
  ok : Option Bool := none
  entries : Option (List Diagnostic) := none

def read : Reader Report :=
  record "ValidationReport"
    [.of "ok" Draft.ok (fun d x => { d with ok := some x }) boolean false,
     .of "errors" Draft.entries (fun d x => { d with entries := some x }) (sequence Diagnostic.read) false]
    {}
    fun d => do return ⟨← present "ok" d.ok, ← present "errors" d.entries⟩

end Report

end TypeBindings
