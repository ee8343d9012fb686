import TypeBindings.Text.Replace

/-!
# String literals

`doubleQuoted` escapes the quote, the backslash, line ends and tabs; `singleQuoted` escapes the quote and the backslash
only.
-/

namespace TypeBindings.Literal

/-- How one character is written between double quotes. -/
def escapeDouble (c : Char) : List Char :=
  if c = '"' then ['\\', '"']
  else if c = '\\' then ['\\', '\\']
  else if c = '\n' then ['\\', 'n']
  else if c = '\r' then ['\\', 'r']
  else if c = '\t' then ['\\', 't']
  else [c]

def doubleQuoted (value : String) : String :=
  String.ofList ('"' :: value.toList.flatMap escapeDouble ++ ['"'])

/-- Backslashes come first, since every escape has one. -/
def singleQuoted (value : String) : String :=
  "'" ++ Text.replace '\'' "\\'" (Text.replace '\\' "\\\\" value) ++ "'"

end TypeBindings.Literal
