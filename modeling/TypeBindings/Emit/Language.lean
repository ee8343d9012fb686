import TypeBindings.Emit.Comment
import TypeBindings.Emit.Context
import TypeBindings.FileSet
import TypeBindings.Target
import TypeBindings.TypeSystem

/-!
# Languages

A language says how shapes are written and what declaration a definition becomes. A shape is written from the inside
out: the text of a list or a map is built around the text of what it holds.
-/

namespace TypeBindings

structure Language where
  target : Target
  style : IndentStyle
  /-- Whether records that are mere components of a union usually get no declaration. -/
  hidesComponents : Bool := true
  primitive : Primitive → String
  /-- The type that can be anything. -/
  dynamic : String
  list : String → String
  map : String → String
  listImports : List String := []
  mapImports : List String := []

namespace Language

/-- A shape as a type of the language. Names that are no portable primitive stay as they are. -/
def typeText (lang : Language) : Shape → String
  | .primitive name => ((Primitive.ofName? name).map lang.primitive).getD name
  | .reference name => name
  | .array element => lang.list (lang.typeText element)
  | .map value => lang.map (lang.typeText value)
  | .unknown => lang.dynamic

/-- The imports that the type of a shape needs, those of inner shapes first. -/
def typeImports (lang : Language) : Shape → List String
  | .array element => lang.typeImports element ++ lang.listImports
  | .map value => lang.typeImports value ++ lang.mapImports
  | .primitive _ => []
  | .reference _ => []
  | .unknown => []

def suppresses (lang : Language) (policy : ComponentPolicy) : Bool :=
  policy.suppresses lang.hidesComponents

/-- The definitions that get a declaration, in order. -/
def eligible (lang : Language) (policy : ComponentPolicy) (system : TypeSystem) : List Definition :=
  system.definitions.filter fun d => !(lang.suppresses policy && d.componentOnly)

end Language

/-- A documentation comment before a line, if there is a description. -/
def documented (comment : String → List String) (depth : Nat) (description : Option String) : List Line :=
  match description with
  | none => []
  | some text => Line.block depth (comment text)

/-- The name of the first union that lists a record which is a mere component. -/
def owner? (system : TypeSystem) (d : Definition) : Option String :=
  if d.componentOnly then (system.unionOf? d.name).map (·.name) else none

/-- The first line of every generated file. -/
def fileHeader : String := "// Code generated by typegen. DO NOT EDIT.\n"

end TypeBindings
