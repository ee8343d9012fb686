import TypeBindings.Json.Pointer
import TypeBindings.Json.Schema.Basic

/-!
# Schemas written in JSON

`Schema.Document.ofJson` reads a schema from a JSON value. First no reference in it may lead to another document, not
even one in a named schema that is never used. Then the value is checked as a schema, keyword by keyword in the order of
its draft. Last every reference that is reached from the outside in must lead to a schema.
-/

namespace TypeBindings.Json.Schema

/-- Why a JSON value is no schema. -/
inductive Malformed where
  | wrongType (value : Json) (types : List Kind)
  | noMatch (value : Json)
  | repeated (value : Json)
  | notReference (value : Json)
  | unknownDraft (name : String)
  | reference (error : ReferenceError)

def Malformed.message : Malformed → String
  | .wrongType value types => wrongTypeMessage value types
  | .noMatch value => value.compact ++ " is not valid under any of the schemas listed in the 'anyOf' keyword"
  | .repeated value => value.compact ++ " has non-unique elements"
  | .notReference value => value.compact ++ " is not a \"uri-reference\""
  | .unknownDraft name => "Unknown specification: " ++ name
  | .reference error => error.message

/-! ## Drafts -/

/-- The versions of the schema language. -/
inductive Draft where
  | draft4
  | draft6
  | draft7
  | draft2019
  | draft2020
deriving DecidableEq, Repr

namespace Draft

/-- Where the documents of a draft stand. -/
def uri : Draft → Uri
  | .draft4 => { scheme := some "http", authority := some "json-schema.org", path := "/draft-04/" }
  | .draft6 => { scheme := some "http", authority := some "json-schema.org", path := "/draft-06/" }
  | .draft7 => { scheme := some "http", authority := some "json-schema.org", path := "/draft-07/" }
  | .draft2019 => { scheme := some "https", authority := some "json-schema.org", path := "/draft/2019-09/" }
  | .draft2020 => { scheme := some "https", authority := some "json-schema.org", path := "/draft/2020-12/" }

/-- What the names of the documents of a draft begin with. -/
def address (draft : Draft) : String := draft.uri.documentText

def all : List Draft := [.draft4, .draft6, .draft7, .draft2019, .draft2020]

/-- Whether a schema with a reference has no other rules, and keywords are checked in the order of their names. -/
def isFlat (draft : Draft) : Bool := draft ∈ [.draft4, .draft6, .draft7]

/-- The keys whose members are schemas by name. -/
def namedKeys (draft : Draft) : List String :=
  if draft.isFlat then ["definitions", "properties"] else ["$defs", "definitions", "properties"]

/-- Whether a list of schemas can stand where the schema of items stands. -/
def listsItems (draft : Draft) : Bool := draft ≠ .draft2020

/-- Whether references are checked as texts. -/
def checksReferences (draft : Draft) : Bool := draft ∈ [.draft6, .draft7]

/-- The draft that a document names, or else the newest. -/
def ofDocument (document : Json) : Except Malformed Draft :=
  match document.member? "$schema" with
  | some (.str text) =>
    let name := String.ofList (text.toList.reverse.dropWhile (· = '#')).reverse
    match all.find? (·.address ++ "schema" = name) with
    | some draft => .ok draft
    | none => .error (.unknownDraft name)
  | _ => .ok .draft2020

end Draft

/-! ## Keywords -/

/-- A list of different strings. -/
def strings (value : Json) : Except Malformed (List String) :=
  match value with
  | .arr items => do
    let texts ← items.mapM fun item => match item with
      | .str s => .ok s
      | other => .error (.wrongType other [.string])
    if texts.Nodup then return texts else .error (.repeated value)
  | other => .error (.wrongType other [.array])

/-- The types that a schema asks for: one, or several different ones. -/
def kinds (value : Json) : Except Malformed (List Kind) :=
  let kind? : Json → Option Kind
    | .str s => Kind.ofName? s
    | _ => none
  let found := match value with
    | .arr items => items.mapM kind?
    | other => (kind? other).map ([·])
  match found with
  | some types => if types.isEmpty || !types.Nodup then .error (.noMatch value) else .ok types
  | none => .error (.noMatch value)

/-- The text that is the value of a member, if it is one. -/
def textOf? (key : String) (members : List (String × Json)) : Option String :=
  match members.lookup key with
  | some (.str text) => some text
  | _ => none

/-- The references that a schema has itself. -/
def ownReferences (members : List (String × Json)) : List String :=
  (textOf? "$ref" members).toList ++ (textOf? "$schema" members).toList

/-- The text that is the value of a member, if the member is there. -/
def textMember (key : String) (members : List (String × Json)) : Except Malformed (Option String) :=
  match members.lookup key with
  | none => .ok none
  | some (.str text) => .ok (some text)
  | some other => .error (.wrongType other [.string])

/-- What a keyword says, or nothing if it is not there. -/
def keyword {α : Type} (key : String) (read : Json → Except Malformed (List α)) (members : List (String × Json)) :
    Except Malformed (List α) :=
  match members.lookup key with
  | none => .ok []
  | some value => read value

/-! ## Schemas -/

/-- The reference of a schema, if it has one. -/
def referenceMember (draft : Draft) (members : List (String × Json)) : Except Malformed (Option String) := do
  let reference ← textMember "$ref" members
  match reference with
  | none => return none
  | some text =>
    if draft.checksReferences && (parseReference text matches .error _) then .error (.notReference (.str text))
    else return some text

mutual

/-- Reads a schema. -/
def ofJson (draft : Draft) : Json → Except Malformed Schema
  | .bool true => .ok .everything
  | .bool false => .ok .nothing
  | .obj members =>
    if draft.isFlat then do
      let reference ← referenceMember draft members
      let _ ← textMember "$schema" members
      let _ ← memberSchemas draft "definitions" members
      let _ ← textMember "description" members
      let items ← itemSchema draft members
      let properties ← memberSchemas draft "properties" members
      let required ← keyword "required" strings members
      let _ ← textMember "title" members
      let types ← keyword "type" kinds members
      return match reference with
        | some name => refer name
        | none => .rules none items properties required types
    else do
      let _ ← memberSchemas draft "$defs" members
      let reference ← referenceMember draft members
      let _ ← textMember "$schema" members
      let items ← itemSchema draft members
      let properties ← memberSchemas draft "properties" members
      let required ← keyword "required" strings members
      let types ← keyword "type" kinds members
      let _ ← textMember "description" members
      let _ ← textMember "title" members
      let _ ← memberSchemas draft "definitions" members
      return .rules reference items properties required types
  | other => .error (.wrongType other [.boolean, .object])

/-- The schema of items, if there is one. -/
def itemSchema (draft : Draft) : List (String × Json) → Except Malformed (Option Schema)
  | [] => .ok none
  | (name, value) :: rest =>
    if name = "items" then
      match ofJson draft value with
      | .ok schema => .ok (some schema)
      | .error error => .error (if draft.listsItems then .noMatch value else error)
    else itemSchema draft rest

/-- The schemas that are the members of a member, if that member is there. -/
def memberSchemas (draft : Draft) (key : String) : List (String × Json) → Except Malformed (List (String × Schema))
  | [] => .ok []
  | (name, value) :: rest =>
    if name = key then
      match value with
      | .obj members => namedSchemas draft members
      | other => .error (.wrongType other [.object])
    else memberSchemas draft key rest

def namedSchemas (draft : Draft) : List (String × Json) → Except Malformed (List (String × Schema))
  | [] => .ok []
  | (name, value) :: rest => do
    let schema ← ofJson draft value
    let others ← namedSchemas draft rest
    return (name, schema) :: others

end

/-! ## Documents -/

mutual

/-- The references of a schema, in order. -/
def references : Schema → List String
  | .everything => []
  | .nothing => []
  | .rules reference items properties _ _ => reference.toList ++ itemReferences items ++ memberReferences properties

def itemReferences : Option Schema → List String
  | none => []
  | some item => item.references

def memberReferences : List (String × Schema) → List String
  | [] => []
  | (_, schema) :: rest => schema.references ++ memberReferences rest

end

mutual

/-- How many references a JSON value can have as a schema. -/
def referenceCount : Json → Nat
  | .arr items => itemsReferenceCount items
  | .obj members => membersReferenceCount members
  | _ => 0

def itemsReferenceCount : List Json → Nat
  | [] => 0
  | item :: rest => referenceCount item + itemsReferenceCount rest

def membersReferenceCount : List (String × Json) → Nat
  | [] => 0
  | (key, value) :: rest =>
    (if key = "$ref" then 1 else 0) + referenceCount value + membersReferenceCount rest

end

mutual

/-- The references in a schema and in all schemas below it, with the names of their drafts. -/
def allReferences (draft : Draft) : Json → List String
  | .obj members => ownReferences members ++ innerReferences draft members
  | _ => []

def innerReferences (draft : Draft) : List (String × Json) → List String
  | [] => []
  | (key, value) :: rest =>
    (if key = "items" then allReferences draft value
      else if key ∈ draft.namedKeys then
        match value with
        | .obj members => namedReferences draft members
        | _ => []
      else []) ++ innerReferences draft rest

def namedReferences (draft : Draft) : List (String × Json) → List String
  | [] => []
  | (_, value) :: rest => allReferences draft value ++ namedReferences draft rest

end

/-- Checks that no reference leads to another document. The documents of the schema language itself do not count. -/
def requireAlone (draft : Draft) (document : Json) : Except ReferenceError Unit := do
  let outer := (allReferences draft document).filter fun reference =>
    reference.toList.head? ≠ some '#' && !Draft.all.any fun known => known.address.toList.isPrefixOf reference.toList
  let uris ← outer.mapM parseReference
  uris.forM requireOwn

/-- Adds the schemas of references to those that are found, each followed by what it refers to itself. -/
def collect (draft : Draft) (document : Json) :
    (steps : Nat) → List String → List (String × Schema) → Except Malformed (List (String × Schema))
  | 0, _, found => .ok found
  | _, [], found => .ok found
  | steps + 1, name :: rest, found =>
    if found.any (·.1 = name) then collect draft document steps rest found
    else do
      let target ← (referred document name).mapError .reference
      let schema ← ofJson draft target
      collect draft document steps (schema.references ++ rest) (found ++ [(name, schema)])

/-- Reads a schema together with all that it refers to. -/
def Document.ofJson (value : Json) : Except Malformed Document := do
  let draft ← Draft.ofDocument value
  (requireAlone draft value).mapError .reference
  let root ← Schema.ofJson draft value
  let n := referenceCount value
  let definitions ← collect draft value (n * n + n + 1) root.references []
  return ⟨root, definitions⟩

end TypeBindings.Json.Schema
