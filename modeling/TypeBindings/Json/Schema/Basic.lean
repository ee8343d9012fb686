import TypeBindings.Json.Printer

/-!
# Schemas for JSON values

A schema constrains the type of a value, the members of an object and the items of an array, and may refer to another
schema; a document holds the schemas that are referred to. `Schema.Document.violations` lists every breach with the path
of the value at fault. It goes down the value, so it ends for every document.

For one value the breaches are listed by keyword in alphabetical order: those of the schema that is referred to, those
of the items, those of the properties, the missing properties, and last the type of the value itself. What is said of
items holds for arrays alone, and what is said of properties for objects alone.
-/

namespace TypeBindings.Json

/-- The types of values that a schema can ask for. -/
inductive Kind where
  | array
  | boolean
  | integer
  | null
  | number
  | object
  | string
deriving DecidableEq, Repr

namespace Kind

/-- All types in the order of their names. -/
def all : List Kind := [.array, .boolean, .integer, .null, .number, .object, .string]

def name : Kind → String
  | .array => "array"
  | .boolean => "boolean"
  | .integer => "integer"
  | .null => "null"
  | .number => "number"
  | .object => "object"
  | .string => "string"

def ofName? (s : String) : Option Kind :=
  all.find? (·.name = s)

/-- Whether a value has a type. A number without fraction is an integer, however it is written. -/
def admits : Kind → Json → Bool
  | .array, .arr _ => true
  | .boolean, .bool _ => true
  | .integer, .num (.int _) => true
  | .integer, .num (.decimal d) => d.digits == 0 || decide (0 ≤ d.exponent)
  | .null, .null => true
  | .number, .num _ => true
  | .object, .obj _ => true
  | .string, .str _ => true
  | _, _ => false

end Kind

/-- A schema with rules may refer to another one, whose rules then hold as well. -/
inductive Schema where
  | everything
  | nothing
  | rules (reference : Option String) (items : Option Schema) (properties : List (String × Schema))
      (required : List String) (types : List Kind)
deriving Inhabited

namespace Schema

mutual

/-- Equality of schemas is decided part by part. -/
def decEq : (a b : Schema) → Decidable (a = b)
  | .everything, .everything => isTrue rfl
  | .nothing, .nothing => isTrue rfl
  | .rules reference items properties required types, .rules reference' items' properties' required' types' =>
    match decEqItems items items', decEqMembers properties properties' with
    | isTrue h, isTrue h' =>
      if h'' : reference = reference' ∧ required = required' ∧ types = types' then isTrue (by simp [h, h', h''])
      else isFalse (by simp_all)
    | isFalse h, _ => isFalse (by simp [h])
    | _, isFalse h => isFalse (by simp [h])
  | .everything, .nothing => isFalse nofun
  | .everything, .rules .. => isFalse nofun
  | .nothing, .everything => isFalse nofun
  | .nothing, .rules .. => isFalse nofun
  | .rules .., .everything => isFalse nofun
  | .rules .., .nothing => isFalse nofun

def decEqItems : (a b : Option Schema) → Decidable (a = b)
  | none, none => isTrue rfl
  | some a, some b =>
    match decEq a b with
    | isTrue h => isTrue (by rw [h])
    | isFalse h => isFalse (by simp [h])
  | none, some _ => isFalse nofun
  | some _, none => isFalse nofun

def decEqMembers : (a b : List (String × Schema)) → Decidable (a = b)
  | [], [] => isTrue rfl
  | (key, a) :: rest, (key', b) :: rest' =>
    match decEq a b, decEqMembers rest rest' with
    | isTrue h, isTrue h' => if h'' : key = key' then isTrue (by rw [h, h', h'']) else isFalse (by simp [h''])
    | isFalse h, _ => isFalse (by simp [h])
    | _, isFalse h => isFalse (by simp [h])
  | [], _ :: _ => isFalse nofun
  | _ :: _, [] => isFalse nofun

end

instance : DecidableEq Schema := decEq

/-- A schema that asks only for one of the given types. -/
def typed (types : List Kind) : Schema := .rules none none [] [] types

/-- Arrays whose items follow a schema. -/
def arrayOf (item : Schema) : Schema := .rules none (some item) [] [] [.array]

/-- Objects with constraints on some of their members. -/
def objectOf (properties : List (String × Schema)) (required : List String) : Schema :=
  .rules none none properties required [.object]

/-- The schema that another one is. -/
def refer (reference : String) : Schema := .rules (some reference) none [] [] []

/-- A schema and those that it refers to, each under the text of the reference. -/
structure Document where
  root : Schema
  definitions : List (String × Schema) := []
deriving DecidableEq

/-- The schemas without references whose rules hold for one value, those that are referred to first. Only the
definitions that are left are followed, at most `steps` of them. -/
def partsWithin : (steps : Nat) → (left : List (String × Schema)) → Schema → List Schema
  | _, _, .everything => []
  | _, _, .nothing => [.nothing]
  | 0, _, .rules _ items properties required types => [.rules none items properties required types]
  | steps + 1, left, .rules reference items properties required types =>
    (match reference.bind fun name => left.find? (·.1 = name) with
      | some (name, target) => partsWithin steps (left.filter (·.1 ≠ name)) target
      | none => []) ++ [.rules none items properties required types]

/-- The schemas without references whose rules hold for one value. A reference is followed once: a second time on the
way from the same value it says nothing new. -/
def parts (definitions : List (String × Schema)) (schema : Schema) : List Schema :=
  partsWithin definitions.length definitions schema

/-! ## Breaches -/

/-- One step down into a value. -/
inductive Step where
  | key (name : String)
  | index (i : Nat)
deriving DecidableEq, Repr

/-- A key with the two characters that are special in a path written as escapes. -/
def Step.escapeKey (name : String) : String :=
  String.ofList (name.toList.flatMap fun c => if c = '~' then ['~', '0'] else if c = '/' then ['~', '1'] else [c])

def Step.text : Step → String
  | .key name => "/" ++ escapeKey name
  | .index i => s!"/{i}"

/-- A path down from the whole value, which is `$`. -/
def pathText (path : List Step) : String :=
  "$" ++ Text.concat (path.map Step.text)

inductive Problem where
  | wrongType (value : Json) (types : List Kind)
  | missing (name : String)
  | forbidden (value : Json)

/-- A value that does not have one of the given types. -/
def wrongTypeMessage (value : Json) (types : List Kind) : String :=
  let names := (Kind.all.filter types.contains).map fun kind => quoted kind.name
  value.compact ++ (if names.length = 1 then " is not of type " else " is not of types ") ++ Text.joinWith ", " names

def Problem.message : Problem → String
  | .wrongType value types => wrongTypeMessage value types
  | .missing name => quoted name ++ " is a required property"
  | .forbidden value => "False schema does not allow " ++ value.compact

structure Violation where
  path : List Step
  problem : Problem

/-- The names that an object should have as keys and does not. -/
def missingKeys (required : List String) : Json → List String
  | .obj members => required.filter fun name => (members.lookup name).isNone
  | _ => []

/-- The breach of the type of a value, if there is one. -/
def typeViolations (path : List Step) (types : List Kind) (value : Json) : List Violation :=
  if types.isEmpty || types.any (·.admits value) then [] else [⟨path, .wrongType value types⟩]

variable (definitions : List (String × Schema))

mutual

/-- The breaches of a schema by the value at a path. -/
def violations (schema : Schema) (path : List Step) : Json → List Violation
  | .arr elements =>
    (schema.parts definitions).flatMap fun part => match part with
      | .everything => []
      | .nothing => [⟨path, .forbidden (.arr elements)⟩]
      | .rules _ items _ _ types =>
        (match items with
          | none => []
          | some item => itemViolations item path 0 elements) ++
        typeViolations path types (.arr elements)
  | .obj members =>
    (schema.parts definitions).flatMap fun part => match part with
      | .everything => []
      | .nothing => [⟨path, .forbidden (.obj members)⟩]
      | .rules _ _ properties required types =>
        properties.flatMap (fun (key, property) => memberViolations key property path members) ++
        (missingKeys required (.obj members)).map (fun name => ⟨path, .missing name⟩) ++
        typeViolations path types (.obj members)
  | value =>
    (schema.parts definitions).flatMap fun part => match part with
      | .everything => []
      | .nothing => [⟨path, .forbidden value⟩]
      | .rules _ _ _ _ types => typeViolations path types value

/-- The breaches by the items of an array, the first of which has the given index. -/
def itemViolations (item : Schema) (path : List Step) (index : Nat) : List Json → List Violation
  | [] => []
  | element :: rest =>
    violations item (path ++ [.index index]) element ++ itemViolations item path (index + 1) rest

/-- The breaches by the member with a key, if there is one. -/
def memberViolations (key : String) (property : Schema) (path : List Step) : List (String × Json) → List Violation
  | [] => []
  | (name, value) :: rest =>
    if name = key then violations property (path ++ [.key key]) value
    else memberViolations key property path rest

end

/-- All breaches of a document by a value. -/
def Document.violations (document : Document) (value : Json) : List Violation :=
  Schema.violations document.definitions document.root [] value

end Schema

end TypeBindings.Json
