import TypeBindings.Text.Ascii

/-!
# Shapes of values

A `Shape` says what the values of a property look like: a portable primitive, a type referred to by name, or a list or
string-keyed map of values of one shape. A shape that is not one of these is `unknown`.
-/

namespace TypeBindings

inductive Shape where
  | primitive (name : String)
  | reference (name : String)
  | array (element : Shape)
  | map (value : Shape)
  | unknown
deriving DecidableEq, Repr, Inhabited

namespace Shape

/-- The names of the types that a shape refers to at any depth. -/
def references : Shape → List String
  | .reference name => [name]
  | .array element => element.references
  | .map value => value.references
  | .primitive _ => []
  | .unknown => []

/-- Whether a shape has a part that is not known. -/
def hasUnknown : Shape → Bool
  | .unknown => true
  | .array element => element.hasUnknown
  | .map value => value.hasUnknown
  | .primitive _ => false
  | .reference _ => false

end Shape

/-- The primitives that every target language has a type for. -/
inductive Primitive where
  | string
  | number
  | boolean
  | integer
  | any
deriving DecidableEq, Repr

namespace Primitive

def all : List Primitive := [.string, .number, .boolean, .integer, .any]

def name : Primitive → String
  | .string => "string"
  | .number => "number"
  | .boolean => "boolean"
  | .integer => "integer"
  | .any => "any"

/-- The primitive of a name, in which capital and small letters count as the same. -/
def ofName? (s : String) : Option Primitive :=
  all.find? (·.name = Text.lower s)

end Primitive

end TypeBindings
