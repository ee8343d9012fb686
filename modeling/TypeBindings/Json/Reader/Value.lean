import TypeBindings.Json.Reader.Number
import TypeBindings.Json.Reader.Text

/-!
# Reading whole values

`Reader.listItems` and `Reader.objectMembers` are the loops over the items of a list and the members of an object, for
any reader of one item. `Reader.value` reads one value, and `Json.parse` a whole text, whose objects come out sorted.
`Reader.skipValue` passes over a value: it holds the open brackets in a list instead of nesting, knows no bound on
their number, and does not care whether a number is in range or an escape is half of a pair.
-/

namespace TypeBindings.Json

namespace Reader

variable {α σ : Type}

/-! ## Lists and objects -/

/-- Whether a list goes on, at its beginning or after an item; a comma before the next item is taken. -/
def moreItems (first : Bool) : Reader Bool := do
  match ← peekToken with
  | none => failNext .endInList
  | some ']' => return false
  | some c =>
    if first then return true
    else if c = ',' then
      skip
      match ← peekToken with
      | none => failNext .endInValue
      | some ']' => failNext .trailingComma
      | some _ => return true
    else failNext .expectedListCommaOrEnd

/-- Whether an object goes on, at its beginning or after a member; what comes before the next key is taken. -/
def moreMembers (first : Bool) : Reader Bool := do
  match ← peekToken with
  | none => failNext .endInObject
  | some '\x7d' => return false
  | some c =>
    if first then
      if c = '"' then return true else failNext .keyMustBeString
    else if c = ',' then
      skip
      match ← peekToken with
      | none => failNext .endInValue
      | some '"' => return true
      | some '\x7d' => failNext .trailingComma
      | some _ => failNext .keyMustBeString
    else failNext .expectedObjectCommaOrEnd

/-- The colon after a key. -/
def colon : Reader Unit := do
  match ← peekToken with
  | some ':' => skip
  | some _ => failNext .expectedColon
  | none => failNext .endInObject

/-- The items up to the end of a list, which is taken. -/
def itemsFrom (item : Reader α) : (steps : Nat) → (first : Bool) → Reader (List α)
  | 0, _ => failHere (.grammar .endInList)
  | steps + 1, first => do
    if ← moreItems first then
      let head ← item
      let tail ← itemsFrom item steps false
      return head :: tail
    else
      skip
      return []

/-- The items of a list whose bracket comes next. -/
def listItems (item : Reader α) : Reader (List α) :=
  nested do itemsFrom item (← read).steps true

/-- Goes through the members up to the end of an object, which is taken; `step` is run after each key. -/
def membersFrom (step : σ → String → Reader σ) : (steps : Nat) → (first : Bool) → σ → Reader σ
  | 0, _, _ => failHere (.grammar .endInObject)
  | steps + 1, first, state => do
    if ← moreMembers first then
      skip
      let key ← string
      let state ← step state key
      membersFrom step steps false state
    else
      skip
      return state

/-- Goes through the members of an object whose brace comes next. -/
def objectMembers (step : σ → String → Reader σ) (start : σ) : Reader σ :=
  nested do membersFrom step (← read).steps true start

/-! ## Values -/

/-- A value that holds no other value, its first character being the next one; nothing at an opening bracket. -/
def scalar? : Reader (Option Json) := do
  match ← peekToken with
  | none => failNext .endInValue
  | some 'n' =>
    literal "null".toList
    return some .null
  | some 't' =>
    literal "true".toList
    return some (.bool true)
  | some 'f' =>
    literal "false".toList
    return some (.bool false)
  | some '"' =>
    skip
    return some (.str (← string))
  | some '[' => return none
  | some '\x7b' => return none
  | some c =>
    if c = '-' || c.isDigit then return some (.num (← number))
    else failNext .expectedValue

/-- A value with at most `depth` brackets inside each other. Members keep the order of the text. -/
def valueWithin : (depth : Nat) → Reader Json
  | 0 => do
    match ← scalar? with
    | some value => return value
    | none => failNext .tooDeep
  | depth + 1 => do
    match ← scalar? with
    | some value => return value
    | none =>
      if (← peek) == some '[' then return .arr (← listItems (valueWithin depth))
      else
        let members ← objectMembers (fun read key => do
          colon
          return (key, ← valueWithin depth) :: read) []
        return .obj members.reverse

/-- A value with its members in the order of the text. -/
def value : Reader Json := do
  valueWithin (← read).depth

/-! ## Passing over a value -/

inductive Bracket where
  | list
  | object

/-- What is to be passed over next: a value, the first item of the innermost bracket, or what follows an item. -/
inductive Passing where
  | value
  | opened
  | item

/-- Passes over the key of a member, if the innermost bracket is an object. -/
def skipKey : Bracket → Reader Unit
  | .list => return ()
  | .object => do
    match ← peekToken with
    | some '"' =>
      skip
      skipString
      colon
    | some _ => failNext .keyMustBeString
    | none => failNext .endInObject

/-- Passes over a value that is no list or object, or opens a bracket. -/
def skipScalar : Reader (Option Bracket) := do
  match ← peekToken with
  | none => failNext .endInValue
  | some 'n' =>
    literal "null".toList
    return none
  | some 't' =>
    literal "true".toList
    return none
  | some 'f' =>
    literal "false".toList
    return none
  | some '"' =>
    skip
    skipString
    return none
  | some '[' =>
    skip
    return some .list
  | some '\x7b' =>
    skip
    return some .object
  | some c =>
    if c = '-' || c.isDigit then
      let _ ← numeral .invalidNumber
      return none
    else failNext .expectedValue

/-- Passes over what is left of a value inside the given brackets, innermost first. -/
def skipFrom : (steps : Nat) → Passing → List Bracket → Reader Unit
  | 0, _, _ => failHere (.grammar .endInValue)
  | steps + 1, .value, brackets => do
    match ← skipScalar with
    | some bracket => skipFrom steps .opened (bracket :: brackets)
    | none => skipFrom steps .item brackets
  | _ + 1, _, [] => return ()
  | steps + 1, passing, bracket :: brackets => do
    let token ← peekToken
    match token, bracket, passing with
    | some ']', .list, _ =>
      skip
      skipFrom steps .item brackets
    | some '\x7d', .object, _ =>
      skip
      skipFrom steps .item brackets
    | none, .list, _ => failNext .endInList
    | none, .object, _ => failNext .endInObject
    | some _, _, .opened =>
      skipKey bracket
      skipFrom steps .value (bracket :: brackets)
    | some ',', _, _ =>
      skip
      skipKey bracket
      skipFrom steps .value (bracket :: brackets)
    | some _, .list, _ => failNext .expectedListCommaOrEnd
    | some _, .object, _ => failNext .expectedObjectCommaOrEnd

/-- Passes over one value. -/
def skipValue : Reader Unit := do
  skipFrom (← read).steps .value []

end Reader

/-- The value of a whole text, with the members of its objects sorted and each key once. -/
def parse (text : String) : Except Fault Json := do
  return (← Reader.value.run text).canonical

end TypeBindings.Json
