/-!
# ASCII letters, digits and identifiers

Names are compared without regard to ASCII case, and identifiers are made of ASCII characters only: other letters are
left as they are and are no part of an identifier.
-/

namespace TypeBindings.Text

/-- The text with its ASCII capital letters made small. -/
def lower (s : String) : String :=
  String.ofList (s.toList.map Char.toLower)

/-- A letter or an underscore, with which a plain identifier may begin. -/
def startsWord (c : Char) : Bool :=
  c.isAlpha || c == '_'

/-- A letter, a digit or an underscore, of which a plain identifier is made. -/
def inWord (c : Char) : Bool :=
  c.isAlphanum || c == '_'

/-- Whether a text is a letter or underscore followed by letters, digits and underscores. -/
def isWord (s : String) : Bool :=
  match s.toList with
  | [] => false
  | c :: rest => startsWord c && rest.all inWord

/-- Whether a text is an identifier in which the dollar sign counts as a letter. -/
def isIdentifier (s : String) : Bool :=
  match s.toList with
  | [] => false
  | c :: rest => (startsWord c || c == '$') && rest.all fun c => inWord c || c == '$'

/-- The text with its first character made a capital letter if it is a small ASCII letter. -/
def capitalized (s : String) : String :=
  match s.toList with
  | [] => ""
  | c :: rest => String.ofList (c.toUpper :: rest)

/-- The value of a hexadecimal digit. -/
def hexValue? (c : Char) : Option Nat :=
  if c.isDigit then some (c.toNat - 48)
  else if 'a' ≤ c ∧ c ≤ 'f' then some (c.toNat - 87)
  else if 'A' ≤ c ∧ c ≤ 'F' then some (c.toNat - 55)
  else none

end TypeBindings.Text
