import TypeBindings.Decimal.Basic

/-!
# JSON values

A value keeps the members of its objects in a list. A value as read from a text may repeat a key and has its members in
the order of the text; `Json.canonical` sorts the members by key and keeps the last value of a repeated key.
-/

namespace TypeBindings

/-- A number of a JSON text: a whole number of at most 64 bits, or the shortest decimal of a binary64 number. -/
inductive Json.Number where
  | int (value : Int)
  | decimal (value : Decimal)
deriving DecidableEq, Repr

inductive Json where
  | null
  | bool (value : Bool)
  | num (value : Json.Number)
  | str (value : String)
  | arr (items : List Json)
  | obj (members : List (String × Json))
deriving Repr, Inhabited

namespace Json

/-- The value of the first member with the given key. -/
def member? (key : String) : Json → Option Json
  | .obj members => members.lookup key
  | _ => none

/-- Puts a member at its place in a list sorted by key, unless the key is there already. -/
def addMember {α : Type} (key : String) (value : α) : List (String × α) → List (String × α)
  | [] => [(key, value)]
  | (k, v) :: rest =>
    if key = k then (k, v) :: rest
    else if key < k then (key, value) :: (k, v) :: rest
    else (k, v) :: addMember key value rest

mutual

/-- The same value with the members of every object sorted by key, each key once, with its last value. -/
def canonical : Json → Json
  | .arr items => .arr (canonicalItems items)
  | .obj members => .obj (canonicalMembers members)
  | .null => .null
  | .bool b => .bool b
  | .num n => .num n
  | .str s => .str s

def canonicalItems : List Json → List Json
  | [] => []
  | item :: rest => canonical item :: canonicalItems rest

def canonicalMembers : List (String × Json) → List (String × Json)
  | [] => []
  | (key, value) :: rest => addMember key (canonical value) (canonicalMembers rest)

end

/-- A member that is there only when it has a value. -/
def optional (key : String) : Option Json → List (String × Json)
  | none => []
  | some value => [(key, value)]

/-- A member that is there only when it is true. -/
def flag (key : String) (value : Bool) : List (String × Json) :=
  if value then [(key, .bool true)] else []

end Json

end TypeBindings
