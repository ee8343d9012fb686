import TypeBindings.Text.Hidden

/-!
# Texts with every character made visible

`visibleQuoted` puts a text between double quotes for a message to a reader: characters that would not show, or that
would change the one before them, are written as escapes.
-/

namespace TypeBindings.Text

def inRanges (ranges : List (Nat × Nat)) (c : Char) : Bool :=
  ranges.any fun (low, high) => low ≤ c.toNat && c.toNat ≤ high

/-- Whether a character shows nothing of its own. -/
def isHidden (c : Char) : Bool :=
  [silent, ignorable, extending, unassigned].any (inRanges · c)

/-- One character as it is written in a message. -/
def visible (c : Char) : List Char :=
  if c.toNat = 0 then ['\\', '0']
  else if c = '\t' then ['\\', 't']
  else if c = '\r' then ['\\', 'r']
  else if c = '\n' then ['\\', 'n']
  else if c = '"' then ['\\', '"']
  else if c = '\\' then ['\\', '\\']
  else if isHidden c then
    ['\\', 'u', '\x7b'] ++ Nat.toDigits 16 c.toNat ++ ['\x7d']
  else [c]

/-- A text between double quotes with every character visible. -/
def visibleQuoted (s : String) : String :=
  String.ofList ('"' :: s.toList.flatMap visible ++ ['"'])

end TypeBindings.Text
