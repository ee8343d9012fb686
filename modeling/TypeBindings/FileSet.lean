/-!
# Generated files

A set of files keeps the order in which names were first added. A file of a name that is there replaces the content and
not the place.
-/

namespace TypeBindings

structure FileSet where
  files : List (String × String) := []
deriving DecidableEq, Repr

namespace FileSet

def replace (name content : String) : List (String × String) → List (String × String)
  | [] => [(name, content)]
  | (n, c) :: rest => if n = name then (name, content) :: rest else (n, c) :: replace name content rest

def add (set : FileSet) (name content : String) : FileSet :=
  ⟨replace name content set.files⟩

def get? (set : FileSet) (name : String) : Option String :=
  set.files.lookup name

def names (set : FileSet) : List String :=
  set.files.map Prod.fst

end FileSet

end TypeBindings
