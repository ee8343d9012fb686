import TypeBindings.Emit.Language
import TypeBindings.Emit.Literal

/-!
# Writing in a context

The declarations of a file are written one after the other in one context, and every step may read it and change it:
the indentation goes one level deeper and comes back, and an import is noted where something that needs it is written.
An `Emitter` writes the three kinds of definitions of one language in this way.
-/

namespace TypeBindings

/-- Writing that reads and changes the context. -/
abbrev Emission := StateM Context

namespace Emission

/-- The indentation of the current level. -/
def indent : Emission String := do
  return (← get).indent

/-- The indentation of one level more. -/
def innerIndent : Emission String := do
  return (← get).innerIndent

/-- Goes one level deeper. -/
def deeper : Emission Unit :=
  modify Context.deeper

/-- Comes one level back. -/
def shallower : Emission Unit :=
  modify Context.shallower

/-- Notes an import. -/
def needs (name : String) : Emission Unit :=
  modify (·.needs name)

/-- Writes a shape as a type of a language. A list or a map is written after what it holds, and then its imports are
noted. -/
def type (lang : Language) : Shape → Emission String
  | .primitive name => return ((Primitive.ofName? name).map lang.primitive).getD name
  | .reference name => return name
  | .array element => do
    let inner ← type lang element
    lang.listImports.forM needs
    return lang.list inner
  | .map value => do
    let inner ← type lang value
    lang.mapImports.forM needs
    return lang.map inner
  | .unknown => return lang.dynamic

/-- Writes items one after the other. -/
def each {α : Type} (write : α → Emission String) : List α → Emission String
  | [] => return ""
  | item :: rest => do
    let first ← write item
    let others ← each write rest
    return first ++ others

end Emission

/-- One line behind an indentation. -/
def lineText (indent text : String) : String :=
  indent ++ text ++ "\n"

/-- A documentation comment behind an indentation, if there is a description. -/
def commentText (comment : String → List String) (indent : String) (description : Option String) : String :=
  match description with
  | none => ""
  | some text => Text.concat ((comment text).map (lineText indent))

/-- The values of an enumeration and their names, each value in an annotation before its name. -/
def memberText (indent opening closing : String) (members : List (String × String)) : String :=
  Text.concat (members.map fun (value, name) =>
    lineText indent (opening ++ Literal.doubleQuoted value ++ closing) ++ lineText indent (name ++ ","))

/-- How a language writes the three kinds of definitions. -/
structure Emitter where
  record : TypeSystem → Definition → Record → Emission String
  enumeration : Definition → List String → Emission String
  union : Definition → List String → Emission String

/-- Writes a definition. -/
def Emitter.definition (emitter : Emitter) (system : TypeSystem) (d : Definition) : Emission String :=
  match d.body with
  | .record r => emitter.record system d r
  | .enumeration values => emitter.enumeration d values
  | .union components => emitter.union d components

end TypeBindings
