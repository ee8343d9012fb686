import TypeBindings.Json.Reader.Value
import TypeBindings.Json.Schema.OfJson
import TypeBindings.Wire.Decode
import TypeBindings.Wire.Schema

/-!
# Type systems from documents

A document is read in three steps: its text must be JSON, its value must follow the schema of the wire form, and the
shapes of its properties must have the parts that their kinds ask for. Each step reports all that it finds and only the
next one goes on; the second step reports every breach of the schema, not just the first.
-/

namespace TypeBindings

open Json (Fault ShapeError Schema)

namespace Diagnostic

/-- A text that is not JSON. -/
def ofFault (file : String) (fault : Fault) : Diagnostic where
  code := "E_PARSE_ERROR"
  severity := .error
  message := "JSON parse error: " ++ fault.message
  file := file
  path := s!"$.line:{fault.position.line}:col:{fault.position.column}"
  suggestion := some "Check JSON syntax and field types"

/-- A value that follows the schema and still lacks a part; it has no place in the text. -/
def ofShapeError (file : String) (error : ShapeError) : Diagnostic where
  code := "E_PARSE_ERROR"
  severity := .error
  message := "JSON parse error: " ++ error.message
  file := file
  path := "$.line:0:col:0"
  suggestion := some "Check JSON syntax and field types"

def ofViolation (file : String) (violation : Schema.Violation) : Diagnostic where
  code := "E_SCHEMA_VIOLATION"
  severity := .error
  message := violation.problem.message
  file := file
  path := Schema.pathText violation.path

def ofMalformed (file : String) (error : Schema.Malformed) : Diagnostic where
  code := "E_SCHEMA_VIOLATION"
  severity := .error
  message := "Invalid schema: " ++ error.message
  file := file
  path := "$"

end Diagnostic

/-- The breaches of a schema by a value, as diagnostics. -/
def checkSchema (schema : Schema.Document) (file : String) (value : Json) : List Diagnostic :=
  (schema.violations value).map (.ofViolation file)

/-- The breaches of a schema that is itself given as a value. -/
def checkSchemaJson (schema : Json) (file : String) (value : Json) : List Diagnostic :=
  match Schema.Document.ofJson schema with
  | .ok document => checkSchema document file value
  | .error error => [.ofMalformed file error]

/-- The type system of a value, or what is wrong with the value. -/
def TypeSystem.ofDocument (file : String) (value : Json) : Except (List Diagnostic) TypeSystem :=
  match checkSchema wireSchema file value with
  | [] => (TypeSystem.ofJson value).mapError fun error => [.ofShapeError file error]
  | breaches => .error breaches

/-- The type system of a text, or what is wrong with the text. -/
def TypeSystem.parse (file text : String) : Except (List Diagnostic) TypeSystem :=
  match Json.parse text with
  | .ok value => TypeSystem.ofDocument file value
  | .error fault => .error [.ofFault file fault]

end TypeBindings
