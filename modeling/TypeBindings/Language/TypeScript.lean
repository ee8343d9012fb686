import TypeBindings.Emit.Language
import TypeBindings.Emit.Literal

/-!
# TypeScript

Records become interfaces, enumerations become enums of strings, and unions become aliases. All declarations stand in
one file.
-/

namespace TypeBindings.TypeScript

/-- A list type. Brackets around a text with a bar in it make the list apply to the whole. -/
def listType (element : String) : String :=
  if element.toList.contains '|' then "(" ++ element ++ ")[]" else element ++ "[]"

def language : Language where
  target := .typeScript
  style := .spaces 2
  primitive
    | .string => "string"
    | .number | .integer => "number"
    | .boolean => "boolean"
    | .any => "any"
  dynamic := "any"
  list := listType
  map value := "Record<string, " ++ value ++ ">"

/-- The key of a property or a member: an identifier as it is, any other text as a literal. -/
def key (name : String) : String :=
  if Text.isIdentifier name then name else Literal.singleQuoted name

def propertyLines (p : Property) : List Line :=
  documented Comment.block 1 p.description ++
    [⟨1, key p.name ++ (if p.required then "" else "?") ++ ": " ++ language.typeText p.shape ++ ";"⟩]

def bodyLines (d : Definition) : List Line :=
  match d.body with
  | .record r =>
    let extension := match d.base? with
      | some parent => " extends " ++ parent
      | none => ""
    ⟨0, "export interface " ++ d.name ++ extension ++ " \x7b"⟩ :: r.properties.flatMap propertyLines ++ [⟨0, "\x7d"⟩]
  | .enumeration values =>
    ⟨0, "export enum " ++ d.name ++ " \x7b"⟩ ::
      values.map (fun value => ⟨1, key value ++ " = " ++ Literal.singleQuoted value ++ ","⟩) ++ [⟨0, "\x7d"⟩]
  | .union components =>
    let alternatives := if components.isEmpty then language.dynamic else Text.joinWith " | " components
    [⟨0, "export type " ++ d.name ++ " = " ++ alternatives ++ ";"⟩]

def declaration (_system : TypeSystem) (d : Definition) : Declaration where
  lines := documented Comment.block 0 d.description ++ bodyLines d

/-- A declaration on its own, at the outermost level. -/
def declarationText (system : TypeSystem) (d : Definition) : String :=
  renderLines language.style 0 (declaration system d).lines

def fileContent (system : TypeSystem) (policy : ComponentPolicy) : String :=
  let space := match system.package with
    | some name => "// Namespace: " ++ name ++ "\n"
    | none => ""
  fileHeader ++ space ++
    Text.concat ((language.eligible policy system).map fun d => "\n" ++ declarationText system d)

def generate (system : TypeSystem) (policy : ComponentPolicy) : FileSet :=
  ⟨[("types.ts", fileContent system policy)]⟩

end TypeBindings.TypeScript
