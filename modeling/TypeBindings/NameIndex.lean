import TypeBindings.Sorted
import TypeBindings.TypeSystem

/-!
# Where names are defined

A name index lists every place at which each name is defined. Its answers do not depend on the order of its entries:
duplicates are sorted by the place of their first definition.
-/

namespace TypeBindings

/-- A defined name with the places of its definitions in ascending order. -/
structure NameEntry where
  name : String
  first : Nat
  others : List Nat
deriving DecidableEq, Repr

namespace NameEntry

def places (entry : NameEntry) : List Nat :=
  entry.first :: entry.others

def isRepeated (entry : NameEntry) : Bool :=
  !entry.others.isEmpty

end NameEntry

structure NameIndex where
  entries : List NameEntry := []

namespace NameIndex

/-- Notes one more place of a name behind those that it has. -/
def note (name : String) (place : Nat) : List NameEntry → List NameEntry
  | [] => [⟨name, place, []⟩]
  | entry :: rest =>
    if entry.name = name then { entry with others := entry.others ++ [place] } :: rest
    else entry :: note name place rest

/-- The index of the definitions of a type system. -/
def ofSystem (system : TypeSystem) : NameIndex :=
  ⟨system.definitions.zipIdx.foldl (fun entries (d, place) => note d.name place entries) []⟩

def entry? (index : NameIndex) (name : String) : Option NameEntry :=
  index.entries.find? (·.name = name)

/-- The place of the first definition of a name. -/
def place? (index : NameIndex) (name : String) : Option Nat :=
  (index.entry? name).map NameEntry.first

/-- The first definition of a name in the type system of the index. -/
def resolve? (index : NameIndex) (system : TypeSystem) (name : String) : Option Definition :=
  (index.place? name).bind fun place => system.definitions[place]?

def contains (index : NameIndex) (name : String) : Bool :=
  index.entries.any (·.name = name)

/-- The names with more than one definition, by the place of the first one. -/
def duplicates (index : NameIndex) : List NameEntry :=
  sortBy (fun a b => decide (a.first ≤ b.first)) (index.entries.filter NameEntry.isRepeated)

end NameIndex

end TypeBindings
