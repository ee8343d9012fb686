import TypeBindings.Json.Reader.Basic
import TypeBindings.Text.Ascii

/-!
# Reading strings

`Reader.string` reads a string whose opening quote has been taken. Characters outside the basic plane may be written as
two escapes; a half of such a pair alone is an error. `Reader.skipString` passes over a string and does not look at
what its escapes stand for.
-/

namespace TypeBindings.Json.Reader

open Text (hexValue?)

/-- The value of four hexadecimal digits at the front of a text. -/
def hexFour? : List Char → Option Nat
  | a :: b :: c :: d :: _ => do
    return (((← hexValue? a) * 16 + (← hexValue? b)) * 16 + (← hexValue? c)) * 16 + (← hexValue? d)
  | _ => none

/-- Four hexadecimal digits. Other characters are an error after four bytes, and fewer bytes an error at the end. -/
def hexFour : Reader Nat := do
  let cursor ← get
  match hexFour? cursor.rest with
  | some value =>
    skip; skip; skip; skip
    return value
  | none =>
    match Cursor.placeAfter 4 cursor.position cursor.rest with
    | some place => failAt place (.grammar .invalidEscape)
    | none => failAt (Cursor.lastPlace cursor.position cursor.rest) (.grammar .endInString)

/-- Takes one given character of the second half of a pair. -/
def pairMark (c : Char) : Reader Unit := do
  match ← peek with
  | none => failHere (.grammar .endInString)
  | some d => if d = c then skip else failNext .unfinishedSurrogate

/-- The character of an escape by code, after its first two characters. -/
def codeEscape : Reader Char := do
  let n ← hexFour
  if 0xDC00 ≤ n ∧ n ≤ 0xDFFF then failHere (.grammar .loneSurrogate)
  else if n < 0xD800 ∨ 0xDBFF < n then return Char.ofNat n
  else
    pairMark '\\'
    pairMark 'u'
    let low ← hexFour
    if 0xDC00 ≤ low ∧ low ≤ 0xDFFF then return Char.ofNat (0x10000 + (n - 0xD800) * 0x400 + (low - 0xDC00))
    else failHere (.grammar .loneSurrogate)

/-- The characters with an escape of one letter. -/
def letterEscape? : Char → Option Char
  | '"' => some '"'
  | '\\' => some '\\'
  | '/' => some '/'
  | 'b' => some '\x08'
  | 'f' => some '\x0c'
  | 'n' => some '\n'
  | 'r' => some '\r'
  | 't' => some '\t'
  | _ => none

/-- The character of an escape, after its backslash. -/
def escape : Reader Char := do
  match ← peek with
  | none => failHere (.grammar .endInString)
  | some 'u' =>
    skip
    codeEscape
  | some c =>
    match letterEscape? c with
    | some value =>
      skip
      return value
    | none => failNext .invalidEscape

def isControl (c : Char) : Bool :=
  c.toNat < 32

/-- The characters up to the closing quote, the ones already read being `read` in reverse order. -/
def stringFrom : (steps : Nat) → (read : List Char) → Reader String
  | 0, _ => failHere (.grammar .endInString)
  | steps + 1, read => do
    match ← peek with
    | none => failHere (.grammar .endInString)
    | some '"' =>
      skip
      return String.ofList read.reverse
    | some '\\' =>
      skip
      let c ← escape
      stringFrom steps (c :: read)
    | some c =>
      if isControl c then failNext .controlCharacter
      else
        skip
        stringFrom steps (c :: read)

def string : Reader String := do
  stringFrom (← read).steps []

/-- Passes over an escape, after its backslash. -/
def skipEscape : Reader Unit := do
  match ← peek with
  | none => failHere (.grammar .endInString)
  | some 'u' =>
    skip
    let _ ← hexFour
  | some c => if (letterEscape? c).isSome then skip else failNext .invalidEscape

def skipStringFrom : (steps : Nat) → Reader Unit
  | 0 => failHere (.grammar .endInString)
  | steps + 1 => do
    match ← peek with
    | none => failHere (.grammar .endInString)
    | some '"' => skip
    | some '\\' =>
      skip
      skipEscape
      skipStringFrom steps
    | some c =>
      if isControl c then failHere (.grammar .controlCharacter)
      else
        skip
        skipStringFrom steps

/-- Passes over a string, after its opening quote. -/
def skipString : Reader Unit := do
  skipStringFrom (← read).steps

end TypeBindings.Json.Reader
