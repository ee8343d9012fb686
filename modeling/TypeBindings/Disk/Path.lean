import TypeBindings.Text.Concat
import TypeBindings.Text.Split

/-!
# Paths

A path is a text with slashes between its segments. Its components are what the text means: empty segments and single
dots mean nothing, except a dot at the very beginning, and a slash at the very beginning means the root.
-/

namespace TypeBindings

structure Path where
  text : String
deriving DecidableEq, Repr

namespace Path

inductive Component where
  | root
  | current
  | parent
  | name (text : String)
deriving DecidableEq, Repr

/-- What a segment after the first means. -/
def component? (segment : String) : Option Component :=
  if segment = "" || segment = "." then none
  else if segment = ".." then some .parent
  else some (.name segment)

def segments (p : Path) : List String :=
  Text.splitAt '/' p.text

/-- What the first segment means, given whether others follow. -/
def firstComponent (first : String) (alone : Bool) : List Component :=
  if first = "" then (if alone then [] else [.root])
  else if first = "." then [.current]
  else (component? first).toList

def components (p : Path) : List Component :=
  match p.segments with
  | [] => []
  | first :: rest => firstComponent first rest.isEmpty ++ rest.filterMap component?

/-- The last component, if it is a name. -/
def fileName? (p : Path) : Option String :=
  match p.components.getLast? with
  | some (.name text) => some text
  | _ => none

def isAbsolute (p : Path) : Bool :=
  p.text.toList.head? == some '/'

/-- Whether a path ends in a slash, so that it can only name a directory. -/
def endsInSlash (p : Path) : Bool :=
  p.text.toList.getLast? == some '/'

/-- A path below another. An absolute path stays as it is, and no second slash is put after one. -/
def join (p q : Path) : Path :=
  if q.isAbsolute || p.text.isEmpty then q
  else if p.endsInSlash then ⟨p.text ++ q.text⟩
  else ⟨p.text ++ "/" ++ q.text⟩

/-- Leaves out the segments at the end that mean nothing. -/
def trimSegments (segments : List String) : List String :=
  (segments.reverse.dropWhile fun s => (component? s).isNone).reverse

/-- The path without its last component. -/
def parent? (p : Path) : Option Path :=
  match p.segments with
  | [] => none
  | first :: rest =>
    match trimSegments rest with
    | [] => if first = "" then none else some ⟨""⟩
    | meaning =>
      match trimSegments meaning.dropLast with
      | [] => some ⟨if first = "" then "/" else first⟩
      | above => some ⟨Text.joinWith "/" (first :: above)⟩

/-- The path and what is left when its components are taken away one by one from the end. -/
def ancestorsFrom : (steps : Nat) → Path → List Path
  | 0, _ => []
  | steps + 1, p => p :: match p.parent? with
    | none => []
    | some above => ancestorsFrom steps above

def ancestors (p : Path) : List Path :=
  ancestorsFrom (p.segments.length + 1) p

/-- What is gone through on the way along a path: empty segments are passed over, and single dots stay where they
are. -/
def steps (p : Path) : List Component :=
  (if p.isAbsolute then [.root] else []) ++ (p.segments.filter (· ≠ "")).map fun segment =>
    if segment = "." then .current else if segment = ".." then .parent else .name segment

end Path

end TypeBindings
