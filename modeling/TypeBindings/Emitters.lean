import TypeBindings.Backend
import TypeBindings.Emit.Emission

/-!
# The emitters of the target languages

An emitter writes a declaration from its first line to its last and leaves the context for the next one.
-/

namespace TypeBindings

open Emission (indent innerIndent deeper shallower needs each)

namespace TypeScript

def emitProperty (p : Property) : Emission String := do
  let ind ← indent
  let type ← Emission.type language p.shape
  return commentText Comment.block ind p.description ++
    lineText ind (key p.name ++ (if p.required then "" else "?") ++ ": " ++ type ++ ";")

def emitRecord (_system : TypeSystem) (d : Definition) (r : Record) : Emission String := do
  let comment := commentText Comment.block (← indent) d.description
  let extension := match d.base? with
    | some parent => " extends " ++ parent
    | none => ""
  let opening := lineText (← indent) ("export interface " ++ d.name ++ extension ++ " \x7b")
  deeper
  let properties ← each emitProperty r.properties
  shallower
  return comment ++ opening ++ properties ++ lineText (← indent) "\x7d"

def emitEnumeration (d : Definition) (values : List String) : Emission String := do
  let comment := commentText Comment.block (← indent) d.description
  let opening := lineText (← indent) ("export enum " ++ d.name ++ " \x7b")
  let ind ← innerIndent
  let members := values.map fun value => lineText ind (key value ++ " = " ++ Literal.singleQuoted value ++ ",")
  return comment ++ opening ++ Text.concat members ++ lineText (← indent) "\x7d"

def emitUnion (d : Definition) (components : List String) : Emission String := do
  let comment := commentText Comment.block (← indent) d.description
  let alternatives := if components.isEmpty then language.dynamic else Text.joinWith " | " components
  return comment ++ lineText (← indent) ("export type " ++ d.name ++ " = " ++ alternatives ++ ";")

def emitter : Emitter := ⟨emitRecord, emitEnumeration, emitUnion⟩

end TypeScript

namespace Kotlin

/-- Writes the field of a property behind the indentation that all fields have. -/
def emitProperty (ind : String) (p : Property) : Emission String := do
  let type ← Emission.type language p.shape
  return commentText Comment.block ind p.description ++
    lineText ind ("val " ++ fieldName p.name ++ ": " ++ type ++ (if p.required then "," else "? = null,"))

def emitRecord (system : TypeSystem) (d : Definition) (r : Record) : Emission String := do
  needs serializable
  let ind ← indent
  let front := commentText Comment.block ind d.description ++ lineText ind "@Serializable"
  if r.properties.isEmpty then
    return front ++ lineText ind ("class " ++ d.name ++ extension system d)
  deeper
  let fieldInd ← indent
  let fields ← each (emitProperty fieldInd) r.properties
  shallower
  return front ++ lineText ind ("data class " ++ d.name ++ "(") ++ fields ++ lineText ind (")" ++ extension system d)

def emitEnumeration (d : Definition) (values : List String) : Emission String := do
  needs serializable
  needs serialName
  let ind ← indent
  let memberInd ← innerIndent
  let members := values.zip (Naming.memberNames isPlainName Naming.constantName values)
  return commentText Comment.block ind d.description ++ lineText ind "@Serializable" ++
    lineText ind ("enum class " ++ d.name ++ " \x7b") ++ memberText memberInd "@SerialName(" ")" members ++
    lineText ind "\x7d"

def emitUnion (d : Definition) (_components : List String) : Emission String := do
  needs serializable
  let ind ← indent
  return commentText Comment.block ind d.description ++ lineText ind "@Serializable" ++
    lineText ind ("sealed class " ++ d.name)

def emitter : Emitter := ⟨emitRecord, emitEnumeration, emitUnion⟩

end Kotlin

namespace Java

/-- Writes the component of a property behind the indentation that all components have. -/
def emitProperty (ind : String) (last : Bool) (p : Property) : Emission String := do
  let type ← Emission.type language p.shape
  unless p.required do
    needs nullable
  return commentText Comment.block ind p.description ++
    lineText ind ("@JsonProperty(" ++ Literal.doubleQuoted p.name ++ ") " ++ (if p.required then "" else "@Nullable ") ++
      type ++ " " ++ componentName p.name ++ (if last then "" else ","))

def emitComponents (ind : String) : List Property → Emission String
  | [] => return ""
  | [p] => emitProperty ind true p
  | p :: rest => do
    let first ← emitProperty ind false p
    let others ← emitComponents ind rest
    return first ++ others

/-- Writes a record up to the bracket behind its components. -/
def emitComponentList (ind : String) (d : Definition) (r : Record) : Emission String := do
  if r.properties.isEmpty then
    return ind ++ "public record " ++ d.name ++ "()"
  needs jsonProperty
  deeper
  let componentInd ← indent
  let components ← emitComponents componentInd r.properties
  shallower
  return lineText ind ("public record " ++ d.name ++ "(") ++ components ++ ind ++ ")"

/-- Writes what stands in a record for its parent. -/
def emitParentNote (d : Definition) : Emission String :=
  match d.base? with
  | some parent => do
    return lineText (← innerIndent) ("// Records cannot extend " ++ parent ++ "; add its members here by hand.")
  | none => return ""

def emitRecord (system : TypeSystem) (d : Definition) (r : Record) : Emission String := do
  let ind ← indent
  let opening ← emitComponentList ind d r
  let note ← emitParentNote d
  return commentText Comment.block ind d.description ++ opening ++ recordTail system d ++ "\n" ++ note ++
    lineText ind "\x7d"

def emitEnumeration (d : Definition) (values : List String) : Emission String := do
  let ind ← indent
  let memberInd ← innerIndent
  unless values.isEmpty do
    needs jsonProperty
  let members := values.zip (Naming.memberNames isPlainName Naming.constantName values)
  return commentText Comment.block ind d.description ++ lineText ind ("public enum " ++ d.name ++ " \x7b") ++
    memberText memberInd "@JsonProperty(" ")" members ++ lineText ind "\x7d"

def emitUnion (d : Definition) (components : List String) : Emission String := do
  let ind ← indent
  let comment := commentText Comment.block ind d.description
  if components.isEmpty then
    return comment ++ lineText ind ("public interface " ++ d.name ++ " \x7b") ++ lineText ind "\x7d"
  return comment ++
    lineText ind ("public sealed interface " ++ d.name ++ " permits " ++ Text.joinWith ", " components ++ " \x7b") ++
    lineText ind "\x7d"

def emitter : Emitter := ⟨emitRecord, emitEnumeration, emitUnion⟩

end Java

namespace CSharp

def emitProperty (p : Property) : Emission String := do
  let ind ← indent
  let front := commentText Comment.summary ind p.description ++
    lineText ind ("[JsonPropertyName(" ++ Literal.doubleQuoted p.name ++ ")]")
  let type ← Emission.type language p.shape
  let accessors := " " ++ propertyName p.name ++ " \x7b get; set; \x7d"
  if p.required then
    return front ++ lineText ind ("public required " ++ type ++ accessors)
  if isValueType p.shape then
    return front ++ lineText ind ("public " ++ type ++ "?" ++ accessors)
  return front ++ lineText ind ("public " ++ type ++ "?" ++ accessors ++ " = null;")

/-- Writes the properties of a class, with empty lines between them. -/
def emitProperties : List Property → Emission String
  | [] => return ""
  | [p] => emitProperty p
  | p :: rest => do
    let first ← emitProperty p
    let others ← emitProperties rest
    return first ++ "\n" ++ others

def emitRecord (system : TypeSystem) (d : Definition) (r : Record) : Emission String := do
  let ind ← indent
  let opening := lineText ind ("public class " ++ d.name ++ extension system d) ++ lineText ind "\x7b"
  deeper
  let properties ← emitProperties r.properties
  shallower
  return commentText Comment.summary ind d.description ++ opening ++ properties ++ lineText ind "\x7d"

def emitEnumeration (d : Definition) (values : List String) : Emission String := do
  let ind ← indent
  let memberInd ← innerIndent
  let members := values.zip (Naming.memberNames isPlainName Naming.pascalName values)
  return commentText Comment.summary ind d.description ++
    lineText ind "[JsonConverter(typeof(JsonStringEnumConverter))]" ++ lineText ind ("public enum " ++ d.name) ++
    lineText ind "\x7b" ++ memberText memberInd "[JsonStringEnumMemberName(" ")]" members ++ lineText ind "\x7d"

def emitUnion (d : Definition) (_components : List String) : Emission String := do
  let ind ← indent
  return commentText Comment.summary ind d.description ++ lineText ind ("public abstract class " ++ d.name) ++
    lineText ind "\x7b" ++ lineText ind "\x7d"

def emitter : Emitter := ⟨emitRecord, emitEnumeration, emitUnion⟩

end CSharp

/-- The emitter of a target. -/
def Target.emitter : Target → Emitter
  | .typeScript => TypeScript.emitter
  | .kotlin => Kotlin.emitter
  | .java => Java.emitter
  | .cSharp => CSharp.emitter

end TypeBindings
