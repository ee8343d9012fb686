import TypeBindings.Emit.Language
import TypeBindings.Emit.Literal
import TypeBindings.Emit.Naming

/-!
# Kotlin

Records become data classes, enumerations become enum classes with the names of their values on the wire, and unions
become sealed classes that their components extend. All declarations stand in one file, after the imports they need.
-/

namespace TypeBindings.Kotlin

def language : Language where
  target := .kotlin
  style := .spaces 4
  hidesComponents := false
  primitive
    | .string => "String"
    | .number => "Double"
    | .boolean => "Boolean"
    | .integer => "Int"
    | .any => "Any"
  dynamic := "Any"
  list element := "List<" ++ element ++ ">"
  map value := "Map<String, " ++ value ++ ">"

def serializable : String := "kotlinx.serialization.Serializable"

def serialName : String := "kotlinx.serialization.SerialName"

/-- The words that name nothing unless they are quoted. -/
def keywords : List String :=
  ["as", "break", "class", "continue", "do", "else", "false", "for", "fun", "if", "in", "interface", "is", "null",
   "object", "package", "return", "super", "this", "throw", "true", "try", "typealias", "typeof", "val", "var", "when",
   "while"]

def isPlainName (name : String) : Bool :=
  Text.isWord name && !keywords.contains name

/-- The name of a field, quoted if it is not a plain name. -/
def fieldName (name : String) : String :=
  if isPlainName name then name else "`" ++ name ++ "`"

def propertyLines (p : Property) : List Line :=
  documented Comment.block 1 p.description ++
    [⟨1, "val " ++ fieldName p.name ++ ": " ++ language.typeText p.shape ++
      (if p.required then "," else "? = null,")⟩]

/-- What a record extends: its own parent, or else the union that it is a component of. -/
def extension (system : TypeSystem) (d : Definition) : String :=
  (d.base?.or (owner? system d)).elim "" fun parent => " : " ++ parent ++ "()"

def bodyLines (system : TypeSystem) (d : Definition) : List Line :=
  match d.body with
  | .record r =>
    if r.properties.isEmpty then [⟨0, "class " ++ d.name ++ extension system d⟩]
    else ⟨0, "data class " ++ d.name ++ "("⟩ :: r.properties.flatMap propertyLines ++ [⟨0, ")" ++ extension system d⟩]
  | .enumeration values =>
    let members := values.zip (Naming.memberNames isPlainName Naming.constantName values)
    ⟨0, "enum class " ++ d.name ++ " \x7b"⟩ ::
      members.flatMap (fun (value, name) =>
        [⟨1, "@SerialName(" ++ Literal.doubleQuoted value ++ ")"⟩, ⟨1, name ++ ","⟩]) ++ [⟨0, "\x7d"⟩]
  | .union _ => [⟨0, "sealed class " ++ d.name⟩]

def declaration (system : TypeSystem) (d : Definition) : Declaration where
  lines := documented Comment.block 0 d.description ++ ⟨0, "@Serializable"⟩ :: bodyLines system d
  imports := if d.isEnumeration then [serializable, serialName] else [serializable]

/-- A declaration on its own, at the outermost level. -/
def declarationText (system : TypeSystem) (d : Definition) : String :=
  renderLines language.style 0 (declaration system d).lines

/-- The imports that a list of definitions needs, sorted. -/
def fileImports (system : TypeSystem) (definitions : List Definition) : List String :=
  sortTexts (definitions.foldl (fun imports d => addImports imports (declaration system d).imports) [])

def importLines : List String → String
  | [] => ""
  | imports => "\n" ++ Text.concat (imports.map fun name => "import " ++ name ++ "\n")

/-- The declarations of a file, each after an empty line. -/
def fileBody (system : TypeSystem) (policy : ComponentPolicy) : String :=
  Text.concat ((language.eligible policy system).map fun d => "\n" ++ declarationText system d)

def fileContent (system : TypeSystem) (policy : ComponentPolicy) : String :=
  let space := match system.package with
    | some name => "package " ++ name ++ "\n"
    | none => ""
  fileHeader ++ space ++ importLines (fileImports system (language.eligible policy system)) ++ fileBody system policy

def generate (system : TypeSystem) (policy : ComponentPolicy) : FileSet :=
  ⟨[("Types.kt", fileContent system policy)]⟩

end TypeBindings.Kotlin
