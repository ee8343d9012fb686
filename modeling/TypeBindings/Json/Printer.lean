import TypeBindings.Json.Basic
import TypeBindings.Text.Concat

/-!
# JSON text

`Json.compact` writes a value without any space, `Json.pretty` with one member or item on a line and two spaces for
each level. Strings escape the quote, the backslash and the control characters below the space, and nothing else.
-/

namespace TypeBindings.Json

def hexDigit (n : Nat) : Char :=
  Char.ofNat (if n < 10 then 48 + n else 87 + n)

/-- How one character is written inside a string. -/
def escaped (c : Char) : List Char :=
  if c = '"' then ['\\', '"']
  else if c = '\\' then ['\\', '\\']
  else if c = '\n' then ['\\', 'n']
  else if c = '\r' then ['\\', 'r']
  else if c = '\t' then ['\\', 't']
  else if c.toNat = 8 then ['\\', 'b']
  else if c.toNat = 12 then ['\\', 'f']
  else if c.toNat < 32 then ['\\', 'u', '0', '0', hexDigit (c.toNat / 16), hexDigit (c.toNat % 16)]
  else [c]

/-- A text as a JSON string, with its quotes. -/
def quoted (s : String) : String :=
  String.ofList ('"' :: s.toList.flatMap escaped ++ ['"'])

def Number.text : Number → String
  | .int value => toString value
  | .decimal value => value.text

mutual

/-- The text of a value without any space. -/
def compact : Json → String
  | .null => "null"
  | .bool true => "true"
  | .bool false => "false"
  | .num n => n.text
  | .str s => quoted s
  | .arr items => "[" ++ Text.joinWith "," (compactItems items) ++ "]"
  | .obj members => "\x7b" ++ Text.joinWith "," (compactMembers members) ++ "\x7d"

def compactItems : List Json → List String
  | [] => []
  | item :: rest => compact item :: compactItems rest

def compactMembers : List (String × Json) → List String
  | [] => []
  | (key, value) :: rest => (quoted key ++ ":" ++ compact value) :: compactMembers rest

end

def prettyIndent (level : Nat) : String :=
  String.ofList (List.replicate (2 * level) ' ')

/-- The parts between two brackets, one on a line. -/
def prettyBlock (level : Nat) (opening closing : String) : List String → String
  | [] => opening ++ closing
  | parts =>
    opening ++ "\n" ++ Text.joinWith ",\n" (parts.map (prettyIndent (level + 1) ++ ·)) ++ "\n" ++
      prettyIndent level ++ closing

mutual

def prettyAt (level : Nat) : Json → String
  | .arr items => prettyBlock level "[" "]" (prettyItems (level + 1) items)
  | .obj members => prettyBlock level "\x7b" "\x7d" (prettyMembers (level + 1) members)
  | .null => "null"
  | .bool true => "true"
  | .bool false => "false"
  | .num n => n.text
  | .str s => quoted s

def prettyItems (level : Nat) : List Json → List String
  | [] => []
  | item :: rest => prettyAt level item :: prettyItems level rest

def prettyMembers (level : Nat) : List (String × Json) → List String
  | [] => []
  | (key, value) :: rest => (quoted key ++ ": " ++ prettyAt level value) :: prettyMembers level rest

end

/-- The text of a value with one member or item on a line. -/
def pretty (value : Json) : String :=
  prettyAt 0 value

end TypeBindings.Json
