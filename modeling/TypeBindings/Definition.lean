import TypeBindings.Shape
import TypeBindings.Text.Blank
import TypeBindings.Text.Split

/-!
# Type definitions

A definition is a name with a record, an enumeration or a union. Only a record can be marked as a mere component of a
union, so the mark is part of the record. A record keeps the text that names its parent as it was given; the text names
one parent only if it is not blank and has no bar in it.
-/

namespace TypeBindings

/-- A field of a record. -/
structure Property where
  name : String
  shape : Shape
  required : Bool
  description : Option String := none
deriving DecidableEq, Repr

structure Record where
  properties : List Property
  parent : Option String := none
  /-- Whether the type is there only as a component of some union. -/
  componentOnly : Bool := false
deriving DecidableEq, Repr

inductive Body where
  | record (record : Record)
  | enumeration (values : List String)
  | union (components : List String)
deriving DecidableEq, Repr

structure Definition where
  name : String
  body : Body
  description : Option String := none
deriving DecidableEq, Repr

namespace Definition

def record (name : String) (properties : List Property) : Definition :=
  { name, body := .record { properties } }

def enumeration (name : String) (values : List String) : Definition :=
  { name, body := .enumeration values }

def union (name : String) (components : List String) : Definition :=
  { name, body := .union components }

def describe (text : String) (d : Definition) : Definition :=
  { d with description := some text }

/-- Names the parent of a record. Enumerations and unions have none and stay as they are. -/
def extending (parent : String) (d : Definition) : Definition :=
  match d.body with
  | .record r => { d with body := .record { r with parent := some parent } }
  | _ => d

def isEnumeration (d : Definition) : Bool :=
  match d.body with
  | .enumeration _ => true
  | _ => false

def isUnion (d : Definition) : Bool :=
  match d.body with
  | .union _ => true
  | _ => false

/-- Whether the type is a record that is there only as a component of some union. -/
def componentOnly (d : Definition) : Bool :=
  match d.body with
  | .record r => r.componentOnly
  | _ => false

/-- The fields of a record; other types have none. -/
def properties (d : Definition) : List Property :=
  match d.body with
  | .record r => r.properties
  | _ => []

/-- The values of an enumeration; other types have none. -/
def values (d : Definition) : List String :=
  match d.body with
  | .enumeration values => values
  | _ => []

/-- The components of a union; other types have none. -/
def components (d : Definition) : List String :=
  match d.body with
  | .union components => components
  | _ => []

/-- The one type that a record extends, if its parent names exactly one. -/
def base? (d : Definition) : Option String :=
  match d.body with
  | .record r => r.parent.bind fun parent =>
    let name := Text.trim parent
    if parent.toList.contains '|' || name.isEmpty then none else some name
  | _ => none

end Definition

/-- The names in a list that is written with bars between them; blank places name nothing. -/
def componentNames (text : String) : List String :=
  ((Text.splitAt '|' text).map Text.trim).filter fun name => !name.isEmpty

/-- Whether a name comes back unchanged from a written list of components. -/
def isComponentName (name : String) : Bool :=
  !name.isEmpty && Text.trim name == name && !name.toList.contains '|'

end TypeBindings
