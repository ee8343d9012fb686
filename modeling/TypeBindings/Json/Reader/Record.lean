import TypeBindings.Json.Reader.Value

/-!
# Reading values of a given shape

These readers look for a value of one shape and stop at the first thing that does not fit, in the order of the text: a
key that is not wanted is found before its value is looked at, a missing field only at the end of its object.

A record is read from an object, or from a list that gives its fields in order. While it is read, its fields stand in a
draft; a `Field` says how one of them is read and put there.
-/

namespace TypeBindings.Json.Reader

variable {α σ : Type}

/-! ## Simple shapes -/

/-- Fails on a value of the wrong shape, which is taken if it is not a list or an object. -/
def unexpected (expected : String) : Reader α := do
  match ← scalar? with
  | some value => failHere (.shape (.invalidType (.ofJson value) expected))
  | none =>
    let found := if (← peek) == some '[' then Found.sequence else Found.map
    failHere (.shape (.invalidType found expected))

/-- A string, called `expected` where there is none. -/
def text (expected : String := "a string") : Reader String := do
  match ← peekToken with
  | some '"' =>
    skip
    string
  | _ => unexpected expected

def boolean : Reader Bool := do
  match ← peekToken with
  | some 't' =>
    literal "true".toList
    return true
  | some 'f' =>
    literal "false".toList
    return false
  | _ => unexpected "a boolean"

/-- Either null or a value of the given shape. -/
def nullable (inner : Reader α) : Reader (Option α) := do
  match ← peekToken with
  | some 'n' =>
    literal "null".toList
    return none
  | _ => some <$> inner

def sequence (item : Reader α) : Reader (List α) := do
  match ← peekToken with
  | some '[' => listItems item
  | _ => unexpected "a sequence"

/-! ## Choices -/

/-- The name of a choice. -/
def choiceName (choices : List (String × α)) : Reader α := do
  let name ← text "variant identifier"
  match choices.lookup name with
  | some value => return value
  | none => failHere (.shape (.unknownVariant name (choices.map Prod.fst)))

/-- One of the given choices, as its name or as an object that has its name as the only key, with the value null. -/
def choice (choices : List (String × α)) : Reader α := do
  match ← peekToken with
  | some '"' => choiceName choices
  | some '\x7b' =>
    let value ← nested do
      if ← moreMembers true then
        let value ← choiceName choices
        colon
        match ← peekToken with
        | some 'n' => literal "null".toList
        | _ => unexpected "unit"
        return value
      else failNext .expectedValue
    match ← peekToken with
    | some '\x7d' =>
      skip
      return value
    | some _ => failHere (.grammar .expectedValue)
    | none => failHere (.grammar .endInObject)
  | some _ => failNext .expectedValue
  | none => failNext .endInValue

/-! ## Records -/

/-- A field of a record whose draft is `σ`. -/
structure Field (σ : Type) where
  key : String
  /-- Whether the draft has the field already. -/
  filled : σ → Bool
  /-- Reads the value of the field into the draft. -/
  read : σ → Reader σ
  /-- Whether a list of fields may end before it. -/
  optional : Bool := true

/-- Fails because of a key, at the next token; a closing bracket there is taken. -/
def failAfterKey (error : ShapeError) : Reader α := do
  if (← peekToken) == some '\x7d' then skip
  failHere (.shape error)

/-- Reads one member into a draft. Unless the record is closed, a member that is no field is passed over. -/
def member (fields : List (Field σ)) (closed : Bool) (draft : σ) (key : String) : Reader σ := do
  match fields.find? (·.key = key) with
  | some field =>
    if field.filled draft then failAfterKey (.duplicateField key)
    else
      colon
      field.read draft
  | none =>
    if closed then failAfterKey (.unknownField key (fields.map Field.key))
    else
      colon
      skipValue
      return draft

/-- Reads the fields of a record from the items of a list, beginning with the one at `index` of `total`. -/
def itemFields (name : String) (total : Nat) : List (Field σ) → (index : Nat) → σ → Reader σ
  | [], _, draft => return draft
  | field :: rest, index, draft => do
    if ← moreItems (index == 0) then
      let draft ← field.read draft
      itemFields name total rest (index + 1) draft
    else if field.optional then itemFields name total rest (index + 1) draft
    else
      skip
      let elements := if total = 1 then "1 element" else s!"{total} elements"
      failHere (.shape (.invalidLength index ("struct " ++ name ++ " with " ++ elements)))

/-- The end of a list that gives the fields of a record. -/
def endOfItems : Reader Unit := do
  match ← peekToken with
  | some ']' => skip
  | some ',' =>
    skip
    if (← peekToken) == some ']' then failNext .trailingComma else failNext .trailingCharacters
  | some _ => failNext .trailingCharacters
  | none => failNext .endInList

/-- A record with the given fields, from an object or a list; `finish` makes it from its draft or names what is
missing. -/
def record (name : String) (fields : List (Field σ)) (draft : σ) (finish : σ → Except ShapeError α)
    (closed : Bool := false) : Reader α := do
  let draft ← match ← peekToken with
    | some '\x7b' => objectMembers (member fields closed) draft
    | some '[' => nested do
      let draft ← itemFields name fields.length fields 0 draft
      endOfItems
      return draft
    | _ => unexpected ("struct " ++ name)
  match finish draft with
  | .ok value => return value
  | .error error => failHere (.shape error)

/-- The value of a field that must be there. -/
def present (key : String) : Option α → Except ShapeError α
  | some value => .ok value
  | none => .error (.missingField key)

end TypeBindings.Json.Reader
