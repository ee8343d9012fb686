import TypeBindings.Json.Basic
import TypeBindings.Text.Concat
import TypeBindings.Text.Visible

/-!
# What can be wrong with a JSON text

A fault is a cause and the place where reading stopped. A cause is either a breach of the grammar of JSON or a value
that does not fit the shape that was asked for. All wording stands in the `message` functions.
-/

namespace TypeBindings.Json

/-- A place in a text: lines count from one, and the column is the number of bytes of the line up to the place. -/
structure Position where
  line : Nat
  column : Nat
deriving DecidableEq, Repr

/-- The ways in which a text fails to be JSON. -/
inductive GrammarError where
  | endInList
  | endInObject
  | endInString
  | endInValue
  | expectedColon
  | expectedListCommaOrEnd
  | expectedObjectCommaOrEnd
  | expectedIdent
  | expectedValue
  | invalidEscape
  | invalidNumber
  | numberOutOfRange
  | controlCharacter
  | keyMustBeString
  | loneSurrogate
  | trailingComma
  | trailingCharacters
  | unfinishedSurrogate
  | tooDeep
deriving DecidableEq, Repr

namespace GrammarError

def message : GrammarError → String
  | .endInList => "EOF while parsing a list"
  | .endInObject => "EOF while parsing an object"
  | .endInString => "EOF while parsing a string"
  | .endInValue => "EOF while parsing a value"
  | .expectedColon => "expected `:`"
  | .expectedListCommaOrEnd => "expected `,` or `]`"
  | .expectedObjectCommaOrEnd => "expected `,` or `\x7d`"
  | .expectedIdent => "expected ident"
  | .expectedValue => "expected value"
  | .invalidEscape => "invalid escape"
  | .invalidNumber => "invalid number"
  | .numberOutOfRange => "number out of range"
  | .controlCharacter => "control character (\\u0000-\\u001F) found while parsing a string"
  | .keyMustBeString => "key must be a string"
  | .loneSurrogate => "lone leading surrogate in hex escape"
  | .trailingComma => "trailing comma"
  | .trailingCharacters => "trailing characters"
  | .unfinishedSurrogate => "unexpected end of hex escape"
  | .tooDeep => "recursion limit exceeded"

/-- Whether the text only stopped too early. -/
def isEnd : GrammarError → Bool
  | .endInList | .endInObject | .endInString | .endInValue => true
  | _ => false

end GrammarError

/-- What stands in a text where something else was expected. -/
inductive Found where
  | null
  | bool (value : Bool)
  | num (value : Number)
  | str (value : String)
  | sequence
  | map
deriving DecidableEq, Repr

namespace Found

def ofJson : Json → Found
  | .null => .null
  | .bool b => .bool b
  | .num n => .num n
  | .str s => .str s
  | .arr _ => .sequence
  | .obj _ => .map

def message : Found → String
  | .null => "null"
  | .bool b => s!"boolean `{b}`"
  | .num (.int value) => s!"integer `{value}`"
  | .num (.decimal value) => "floating point `" ++ value.text ++ "`"
  | .str s => "string " ++ Text.visibleQuoted s
  | .sequence => "sequence"
  | .map => "map"

end Found

/-- The ways in which a JSON value fails to have an expected shape. -/
inductive ShapeError where
  | invalidType (found : Found) (expected : String)
  | invalidLength (length : Nat) (expected : String)
  | missingField (name : String)
  | duplicateField (name : String)
  | unknownField (name : String) (known : List String)
  | unknownVariant (name : String) (known : List String)
deriving DecidableEq, Repr

namespace ShapeError

/-- The names that would have been right. -/
def alternatives : List String → String
  | [a] => "`" ++ a ++ "`"
  | [a, b] => "`" ++ a ++ "` or `" ++ b ++ "`"
  | names => "one of " ++ Text.joinWith ", " (names.map fun name => "`" ++ name ++ "`")

def message : ShapeError → String
  | .invalidType found expected => "invalid type: " ++ found.message ++ ", expected " ++ expected
  | .invalidLength length expected => s!"invalid length {length}, expected " ++ expected
  | .missingField name => "missing field `" ++ name ++ "`"
  | .duplicateField name => "duplicate field `" ++ name ++ "`"
  | .unknownField name known => "unknown field `" ++ name ++ "`, expected " ++ alternatives known
  | .unknownVariant name known => "unknown variant `" ++ name ++ "`, expected " ++ alternatives known

end ShapeError

inductive Cause where
  | grammar (error : GrammarError)
  | shape (error : ShapeError)
deriving DecidableEq, Repr

/-- The kinds of causes that callers tell apart. -/
inductive Category where
  | grammar
  | early
  | shape
deriving DecidableEq, Repr

namespace Cause

def message : Cause → String
  | .grammar e => e.message
  | .shape e => e.message

def category : Cause → Category
  | .grammar e => if e.isEnd then .early else .grammar
  | .shape _ => .shape

end Cause

/-- A cause and the place where reading stopped. -/
structure Fault where
  cause : Cause
  position : Position
deriving DecidableEq, Repr

/-- The cause, followed by its place. -/
def Fault.message (fault : Fault) : String :=
  fault.cause.message ++ s!" at line {fault.position.line} column {fault.position.column}"

end TypeBindings.Json
