/-!
# Cutting a text at a character

`splitAt sep` cuts at every occurrence of a separator and so always gives at least one piece; `lines` cuts at line
feeds, drops one carriage return before each, and gives no empty last line.
-/

namespace TypeBindings.Text

/-- The pieces of a text between its separators; an empty text is one empty piece. -/
def pieces (isSep : Char → Bool) : List Char → List (List Char)
  | [] => [[]]
  | c :: cs =>
    if isSep c then [] :: pieces isSep cs
    else match pieces isSep cs with
      | [] => [[c]]
      | piece :: rest => (c :: piece) :: rest

/-- The pieces of a text between the occurrences of `sep`. -/
def splitAt (sep : Char) (s : String) : List String :=
  (pieces (· == sep) s.toList).map String.ofList

/-- A line without the carriage return that stood before its line feed. -/
def dropReturn (line : List Char) : List Char :=
  if line.getLast? = some '\r' then line.dropLast else line

/-- The pieces between line feeds as lines: each piece but the last was ended by a line feed, and an empty last piece
is no line. -/
def linesOfPieces : List (List Char) → List (List Char)
  | [] => []
  | [last] => if last = [] then [] else [last]
  | piece :: rest => dropReturn piece :: linesOfPieces rest

def lineList (cs : List Char) : List (List Char) :=
  linesOfPieces (pieces (· == '\n') cs)

/-- The lines of a text. A line ends at a line feed, with one carriage return before it not counted; a carriage return
alone ends no line. -/
def lines (s : String) : List String :=
  (lineList s.toList).map String.ofList

end TypeBindings.Text
