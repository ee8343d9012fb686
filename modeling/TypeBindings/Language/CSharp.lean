import TypeBindings.Emit.Language
import TypeBindings.Emit.Literal
import TypeBindings.Emit.Naming

/-!
# C#

Records become classes, enumerations become enums with the names of their values on the wire, and unions become
abstract classes that their components extend. All declarations stand in one namespace of one file.
-/

namespace TypeBindings.CSharp

def language : Language where
  target := .cSharp
  style := .spaces 4
  primitive
    | .string => "string"
    | .number => "double"
    | .boolean => "bool"
    | .integer => "int"
    | .any => "object"
  dynamic := "object"
  list element := "List<" ++ element ++ ">"
  map value := "Dictionary<string, " ++ value ++ ">"

/-- The namespace of a type system that names none. -/
def defaultNamespace : String := "Models"

def usings : List String := ["System", "System.Collections.Generic", "System.Text.Json.Serialization"]

/-- The words that cannot be names. -/
def keywords : List String :=
  ["abstract", "as", "base", "bool", "break", "byte", "case", "catch", "char", "checked", "class", "const", "continue",
   "decimal", "default", "delegate", "do", "double", "else", "enum", "event", "explicit", "extern", "false", "finally",
   "fixed", "float", "for", "foreach", "goto", "if", "implicit", "in", "int", "interface", "internal", "is", "lock",
   "long", "namespace", "new", "null", "object", "operator", "out", "override", "params", "private", "protected",
   "public", "readonly", "ref", "return", "sbyte", "sealed", "short", "sizeof", "stackalloc", "static", "string",
   "struct", "switch", "this", "throw", "true", "try", "typeof", "uint", "ulong", "unchecked", "unsafe", "ushort",
   "using", "virtual", "void", "volatile", "while"]

def isPlainName (name : String) : Bool :=
  Text.isWord name && !keywords.contains name

/-- The name of a property: a plain identifier with a capital letter, or an identifier made of any other text. -/
def propertyName (name : String) : String :=
  if Text.isWord name then Text.capitalized name else Naming.pascalName name

/-- Whether values of a shape are never null. -/
def isValueType : Shape → Bool
  | .primitive name =>
    match Primitive.ofName? name with
    | some .number | some .integer | some .boolean => true
    | some _ => false
    | none => ["float", "int", "double", "bool"].contains (Text.lower name)
  | _ => false

def propertyLines (p : Property) : List Line :=
  let type := language.typeText p.shape
  let accessors := " " ++ propertyName p.name ++ " \x7b get; set; \x7d"
  documented Comment.summary 1 p.description ++
    [⟨1, "[JsonPropertyName(" ++ Literal.doubleQuoted p.name ++ ")]"⟩,
     ⟨1, if p.required then "public required " ++ type ++ accessors
       else if isValueType p.shape then "public " ++ type ++ "?" ++ accessors
       else "public " ++ type ++ "?" ++ accessors ++ " = null;"⟩]

/-- The properties of a class, with empty lines between them. -/
def memberLines : List Property → List Line
  | [] => []
  | [p] => propertyLines p
  | p :: rest => propertyLines p ++ Line.blank :: memberLines rest

/-- What a record extends: its own parent, or else the union that it is a component of. -/
def extension (system : TypeSystem) (d : Definition) : String :=
  (d.base?.or (owner? system d)).elim "" fun parent => " : " ++ parent

def bodyLines (system : TypeSystem) (d : Definition) : List Line :=
  match d.body with
  | .record r =>
    ⟨0, "public class " ++ d.name ++ extension system d⟩ :: ⟨0, "\x7b"⟩ :: memberLines r.properties ++ [⟨0, "\x7d"⟩]
  | .enumeration values =>
    let members := values.zip (Naming.memberNames isPlainName Naming.pascalName values)
    ⟨0, "[JsonConverter(typeof(JsonStringEnumConverter))]"⟩ :: ⟨0, "public enum " ++ d.name⟩ :: ⟨0, "\x7b"⟩ ::
      members.flatMap (fun (value, name) =>
        [⟨1, "[JsonStringEnumMemberName(" ++ Literal.doubleQuoted value ++ ")]"⟩, ⟨1, name ++ ","⟩]) ++ [⟨0, "\x7d"⟩]
  | .union _ => [⟨0, "public abstract class " ++ d.name⟩, ⟨0, "\x7b"⟩, ⟨0, "\x7d"⟩]

def declaration (system : TypeSystem) (d : Definition) : Declaration where
  lines := documented Comment.summary 0 d.description ++ bodyLines system d

/-- A declaration inside the namespace of its file. -/
def declarationText (system : TypeSystem) (d : Definition) : String :=
  renderLines language.style 1 (declaration system d).lines

/-- The declarations of a file, with empty lines between them. -/
def fileBody (system : TypeSystem) (policy : ComponentPolicy) : String :=
  Text.joinWith "\n" ((language.eligible policy system).map (declarationText system))

def fileContent (system : TypeSystem) (policy : ComponentPolicy) : String :=
  fileHeader ++ "#nullable enable\n\n" ++ Text.concat (usings.map fun name => "using " ++ name ++ ";\n") ++
    "\nnamespace " ++ system.package.getD defaultNamespace ++ "\n\x7b\n" ++ fileBody system policy ++ "\x7d\n"

def generate (system : TypeSystem) (policy : ComponentPolicy) : FileSet :=
  ⟨[("Types.cs", fileContent system policy)]⟩

end TypeBindings.CSharp
