import TypeBindings.Emit.Language
import TypeBindings.Emit.Literal
import TypeBindings.Emit.Naming

/-!
# Java

Records, enums and sealed interfaces, one in each file. A record cannot extend another, so a comment stands for its
parent; a component of a union implements the interface of the first union that lists it.
-/

namespace TypeBindings.Java

def language : Language where
  target := .java
  style := .spaces 4
  primitive
    | .string => "String"
    | .number => "Double"
    | .boolean => "Boolean"
    | .integer => "Integer"
    | .any => "Object"
  dynamic := "Object"
  list element := "List<" ++ element ++ ">"
  map value := "Map<String, " ++ value ++ ">"
  listImports := ["java.util.List"]
  mapImports := ["java.util.Map"]

/-- The package of a type system that names none. -/
def defaultPackage : String := "com.example.models"

def jsonProperty : String := "com.fasterxml.jackson.annotation.JsonProperty"

def nullable : String := "javax.annotation.Nullable"

/-- The words that cannot be names. -/
def keywords : List String :=
  ["_", "abstract", "assert", "boolean", "break", "byte", "case", "catch", "char", "class", "const", "continue",
   "default", "do", "double", "else", "enum", "extends", "false", "final", "finally", "float", "for", "goto", "if",
   "implements", "import", "instanceof", "int", "interface", "long", "native", "new", "null", "package", "private",
   "protected", "public", "return", "short", "static", "strictfp", "super", "switch", "synchronized", "this", "throw",
   "throws", "transient", "true", "try", "void", "volatile", "while"]

def isPlainName (name : String) : Bool :=
  Text.isIdentifier name && !keywords.contains name

/-- The name with its first letter made small if it is a capital ASCII letter. -/
def smallInitial (name : String) : String :=
  match name.toList with
  | [] => name
  | c :: rest => String.ofList (c.toLower :: rest)

/-- The name of a component of a record: an identifier as it is, any other text as an identifier made of it, and an
underscore behind a keyword. -/
def componentName (name : String) : String :=
  let identifier := if Text.isIdentifier name then name else smallInitial (Naming.pascalName name)
  if keywords.contains identifier then identifier ++ "_" else identifier

/-- The component of a property; all but the last have a comma behind them. -/
def propertyLines (last : Bool) (p : Property) : List Line :=
  documented Comment.block 1 p.description ++
    [⟨1, "@JsonProperty(" ++ Literal.doubleQuoted p.name ++ ") " ++ (if p.required then "" else "@Nullable ") ++
      language.typeText p.shape ++ " " ++ componentName p.name ++ (if last then "" else ",")⟩]

def componentLines : List Property → List Line
  | [] => []
  | [p] => propertyLines true p
  | p :: rest => propertyLines false p ++ componentLines rest

def propertyImports (p : Property) : List String :=
  language.typeImports p.shape ++ if p.required then [] else [nullable]

/-- What follows the components of a record, up to the opening brace. -/
def recordTail (system : TypeSystem) (d : Definition) : String :=
  match owner? system d with
  | some union => " implements " ++ union ++ " \x7b"
  | none => " \x7b"

def bodyLines (system : TypeSystem) (d : Definition) : List Line :=
  match d.body with
  | .record r =>
    (if r.properties.isEmpty then [⟨0, "public record " ++ d.name ++ "()" ++ recordTail system d⟩]
      else
        ⟨0, "public record " ++ d.name ++ "("⟩ :: componentLines r.properties ++
          [⟨0, ")" ++ recordTail system d⟩]) ++
      (match d.base? with
        | some parent => [⟨1, "// Records cannot extend " ++ parent ++ "; add its members here by hand."⟩]
        | none => []) ++ [⟨0, "\x7d"⟩]
  | .enumeration values =>
    let members := values.zip (Naming.memberNames isPlainName Naming.constantName values)
    ⟨0, "public enum " ++ d.name ++ " \x7b"⟩ ::
      members.flatMap (fun (value, name) =>
        [⟨1, "@JsonProperty(" ++ Literal.doubleQuoted value ++ ")"⟩, ⟨1, name ++ ","⟩]) ++ [⟨0, "\x7d"⟩]
  | .union components =>
    let opening := if components.isEmpty then "public interface " ++ d.name ++ " \x7b"
      else "public sealed interface " ++ d.name ++ " permits " ++ Text.joinWith ", " components ++ " \x7b"
    [⟨0, opening⟩, ⟨0, "\x7d"⟩]

/-- The imports of a definition in the order of their use. -/
def imports (d : Definition) : List String :=
  match d.body with
  | .record r => if r.properties.isEmpty then [] else jsonProperty :: r.properties.flatMap propertyImports
  | .enumeration values => if values.isEmpty then [] else [jsonProperty]
  | .union _ => []

def declaration (system : TypeSystem) (d : Definition) : Declaration where
  lines := documented Comment.block 0 d.description ++ bodyLines system d
  imports := imports d

/-- A declaration on its own, at the outermost level. -/
def declarationText (system : TypeSystem) (d : Definition) : String :=
  renderLines language.style 0 (declaration system d).lines

/-- The imports of a file, sorted. -/
def fileImports (d : Definition) : List String :=
  sortTexts (addImports [] (imports d))

def importLines : List String → String
  | [] => ""
  | imports => "\n" ++ Text.concat (imports.map fun name => "import " ++ name ++ ";\n")

/-- The file of one definition. -/
def fileContent (system : TypeSystem) (d : Definition) : String :=
  fileHeader ++ "package " ++ system.package.getD defaultPackage ++ ";\n" ++ importLines (fileImports d) ++ "\n" ++
    declarationText system d

/-- A type name with the characters that divide paths and endings made underscores. -/
def fileStem (name : String) : String :=
  String.ofList (name.toList.map fun c => if c = '/' || c = '\\' || c = '.' then '_' else c)

/-- The name of a file, with a number if there are files of that name. -/
def fileName (stem : String) (n : Nat) : String :=
  Naming.numbered stem n ++ ".java"

/-- Adds the file of a definition under the first name that is free. -/
def addFile (system : TypeSystem) (files : FileSet) (d : Definition) : FileSet :=
  files.add (Naming.firstFree files.names (fileName (fileStem d.name))) (fileContent system d)

def generate (system : TypeSystem) (policy : ComponentPolicy) : FileSet :=
  (language.eligible policy system).foldl (addFile system) {}

end TypeBindings.Java
