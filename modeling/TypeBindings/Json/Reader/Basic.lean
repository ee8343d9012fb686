import TypeBindings.Json.Fault

/-!
# Reading JSON text from left to right

A reader takes characters from the front of a text and knows the line and the number of bytes it has passed in that
line. It may also look at the next character without taking it; an error found that way is placed at the first byte of
that character.

Besides the text a reader has two bounds: how deep brackets may still nest, and a number of steps that is larger than
any loop over the text can need, so that every loop is a recursion on a number.
-/

namespace TypeBindings.Json

/-- The text still to be read, and the place reached. -/
structure Cursor where
  rest : List Char
  position : Position := ⟨1, 0⟩

namespace Cursor

/-- The place after one more character of the given size. -/
def advance (p : Position) (c : Char) (bytes : Nat) : Position :=
  if c = '\n' then ⟨p.line + 1, 0⟩ else ⟨p.line, p.column + bytes⟩

/-- The place of the first byte of the next character; at the end of the text, the place reached. -/
def nextPlace (cursor : Cursor) : Position :=
  match cursor.rest with
  | [] => cursor.position
  | c :: _ => advance cursor.position c 1

/-- The place `n` bytes further, if the text goes on that far. -/
def placeAfter : (n : Nat) → Position → List Char → Option Position
  | 0, p, _ => some p
  | _ + 1, _, [] => none
  | n + 1, p, c :: rest =>
    let size := c.utf8Size
    if size ≤ n + 1 then placeAfter (n + 1 - size) (advance p c size) rest
    else some (advance p c (n + 1))

/-- The place at the end of the text. -/
def lastPlace : Position → List Char → Position
  | p, [] => p
  | p, c :: rest => lastPlace (advance p c c.utf8Size) rest

end Cursor

structure Bounds where
  depth : Nat
  steps : Nat

abbrev Reader (α : Type) : Type := ReaderT Bounds (StateT Cursor (Except Fault)) α

namespace Reader

variable {α : Type}

def failAt (place : Position) (cause : Cause) : Reader α :=
  throw ⟨cause, place⟩

/-- Fails at the place reached. -/
def failHere (cause : Cause) : Reader α := do
  failAt (← get).position cause

/-- Fails at the next character. -/
def failNext (error : GrammarError) : Reader α := do
  failAt (← get).nextPlace (.grammar error)

/-- The next character, which is not taken. -/
def peek : Reader (Option Char) := do
  return (← get).rest.head?

/-- Takes one character. -/
def skip : Reader Unit :=
  modify fun cursor => match cursor.rest with
    | [] => cursor
    | c :: rest => ⟨rest, Cursor.advance cursor.position c c.utf8Size⟩

/-- Takes the longest run of characters that satisfy `p`. -/
def takeWhile (p : Char → Bool) : Reader (List Char) := do
  let cursor ← get
  let taken := cursor.rest.takeWhile p
  set (⟨cursor.rest.dropWhile p, taken.foldl (fun q c => Cursor.advance q c c.utf8Size) cursor.position⟩ : Cursor)
  return taken

/-- The characters that may stand between tokens. -/
def isSpace (c : Char) : Bool :=
  c = ' ' || c = '\n' || c = '\t' || c = '\r'

/-- The next character that is not a space; the spaces before it are taken. -/
def peekToken : Reader (Option Char) := do
  let _ ← takeWhile isSpace
  peek

/-- Takes the characters of a literal one by one. -/
def literal : List Char → Reader Unit
  | [] => return ()
  | c :: rest => do
    match ← peek with
    | none => failHere (.grammar .endInValue)
    | some d =>
      if d = c then
        skip
        literal rest
      else failNext .expectedIdent

/-- Runs a reader inside one more bracket, whose opening character is taken first. -/
def nested (inner : Reader α) : Reader α := do
  match (← read).depth with
  | 0 => failNext .tooDeep
  | depth + 1 =>
    skip
    withReader (fun bounds => { bounds with depth }) inner

/-- At most this many brackets may be open at once. -/
def maxDepth : Nat := 127

/-- Reads a whole text, which may have spaces around what is read and nothing else. -/
def run (reader : Reader α) (text : String) : Except Fault α := do
  let characters := text.toList
  let whole : Reader α := do
    let value ← reader
    match ← peekToken with
    | none => return value
    | some _ => failNext .trailingCharacters
  let (value, _) ← whole ⟨maxDepth, 4 * characters.length + 4⟩ ⟨characters, ⟨1, 0⟩⟩
  return value

end Reader

end TypeBindings.Json
