import TypeBindings.Disk.Path
import TypeBindings.Sorted

/-!
# Directories and files as a value

A disk is a list of places, each with a directory or the bytes of a file. A place is the list of names that lead to it
from the root, which is the empty list. A path begins at the root if it begins with a slash, and else at the working
directory.
-/

namespace TypeBindings

/-- Why a file or a directory cannot be used as asked. -/
inductive FileError where
  | notFound
  | alreadyExists
  | notDirectory
  | isDirectory
  | tooLong
  | nulInName
  | notText
deriving DecidableEq, Repr

def FileError.message : FileError → String
  | .notFound => "No such file or directory (os error 2)"
  | .alreadyExists => "File exists (os error 17)"
  | .notDirectory => "Not a directory (os error 20)"
  | .isDirectory => "Is a directory (os error 21)"
  | .tooLong => "File name too long (os error 36)"
  | .nulInName => "file name contained an unexpected NUL byte"
  | .notText => "stream did not contain valid UTF-8"

abbrev Place := List String

/-- A place as an absolute path. -/
def Place.fullPath (place : Place) : String :=
  "/" ++ Text.joinWith "/" place

/-- The path of a place that is seen from a directory. -/
def Path.enter (directory : Path) (place : Place) : Path :=
  directory.join ⟨Text.joinWith "/" place⟩

inductive Node where
  | directory
  | file (content : ByteArray)

structure Disk where
  /-- The place of the working directory. -/
  home : Place
  entries : List (Place × Node)

namespace Disk

/-- What stands at a place. -/
def node? (disk : Disk) (place : Place) : Option Node :=
  if place = [] then some .directory else disk.entries.lookup place

/-- Puts a node at a place, over what was there. -/
def setEntry (place : Place) (node : Node) : List (Place × Node) → List (Place × Node)
  | [] => [(place, node)]
  | (p, n) :: rest => if p = place then (place, node) :: rest else (p, n) :: setEntry place node rest

def set (disk : Disk) (place : Place) (node : Node) : Disk :=
  { disk with entries := setEntry place node disk.entries }

/-- The places above a place, from the outside in. -/
def above (place : Place) : List Place :=
  (List.range place.length).tail.map place.take

/-- Puts a node at a place, together with the directories above it. -/
def insert (disk : Disk) (place : Place) (node : Node) : Disk :=
  ((above place).foldl (fun disk directory => disk.set directory .directory) disk).set place node

/-- The bytes of the file at a place. -/
def fileAt? (disk : Disk) (place : Place) : Option ByteArray :=
  match disk.node? place with
  | some (.file content) => some content
  | _ => none

/-- The files of a disk that another disk does not have, or has with other bytes. -/
def changesFrom (old disk : Disk) : List (Place × ByteArray) :=
  disk.entries.filterMap fun (place, node) =>
    match node with
    | .file content => if (old.fileAt? place).any (·.data == content.data) then none else some (place, content)
    | .directory => none

/-! ## Finding places -/

/-- How many bytes a name may have. -/
def maxNameBytes : Nat := 255

/-- How many bytes a path may have. -/
def maxPathBytes : Nat := 4095

/-- One step from a place, which must be a directory unless the step goes to the root. The root is its own parent. -/
def step (disk : Disk) (here : Place) (component : Path.Component) : Except FileError Place :=
  match component, disk.node? here with
  | .root, _ => .ok []
  | _, none => .error .notFound
  | _, some (.file _) => .error .notDirectory
  | .current, some .directory => .ok here
  | .parent, some .directory => .ok here.dropLast
  | .name text, some .directory => if maxNameBytes < text.utf8ByteSize then .error .tooLong else .ok (here ++ [text])

/-- The place that a path leads to. Nothing need be there, but all that the path goes through must be directories. -/
def locate (disk : Disk) (path : Path) : Except FileError Place :=
  if path.text.toList.contains '\x00' then .error .nulInName
  else if path.text.isEmpty then .error .notFound
  else if maxPathBytes < path.text.utf8ByteSize then .error .tooLong
  else path.steps.foldlM disk.step disk.home

/-- What a path leads to. -/
def find (disk : Disk) (path : Path) : Except FileError Node := do
  let place ← disk.locate path
  match disk.node? place with
  | some .directory => .ok .directory
  | some (.file content) => if path.endsInSlash then .error .notDirectory else .ok (.file content)
  | none => .error .notFound

def isFile (disk : Disk) (path : Path) : Bool :=
  match disk.find path with
  | .ok (.file _) => true
  | _ => false

def isDirectory (disk : Disk) (path : Path) : Bool :=
  match disk.find path with
  | .ok .directory => true
  | _ => false

/-- The full path of something that is there. -/
def fullPath? (disk : Disk) (path : Path) : Option String :=
  match disk.find path, disk.locate path with
  | .ok _, .ok place => some place.fullPath
  | _, _ => none

/-! ## Reading -/

def textOf (content : ByteArray) : Except FileError String :=
  match String.fromUTF8? content with
  | some text => .ok text
  | none => .error .notText

def readText (disk : Disk) (path : Path) : Except FileError String := do
  match ← disk.find path with
  | .file content => textOf content
  | .directory => .error .isDirectory

/-- The files below a directory, by their places seen from it. Names are in order in each directory, and what is below
a directory stands where its name stands. -/
def filesBelow (disk : Disk) (directory : Place) : List Place :=
  let below := disk.entries.filterMap fun (place, node) =>
    match node with
    | .file _ => if directory.isPrefixOf place then some (place.drop directory.length) else none
    | .directory => none
  sortBy (fun a b => !decide (b < a)) below

/-- Whether the directories on the way from a directory down to a place can all be opened by their paths. -/
def opensAbove (disk : Disk) (directory : Path) (place : Place) : Bool :=
  (above place).all fun outer => disk.isDirectory (directory.enter outer)

/-! ## Writing -/

def makeDirectory (disk : Disk) (path : Path) : Except FileError Disk := do
  let place ← disk.locate path
  match disk.node? place with
  | some _ => .error .alreadyExists
  | none => .ok (disk.set place .directory)

/-- Makes a directory, unless it is there. -/
def ensureDirectory (disk : Disk) (path : Path) : Disk × Except FileError Unit :=
  match disk.makeDirectory path with
  | .ok made => (made, .ok ())
  | .error error => (disk, if disk.isDirectory path then .ok () else .error error)

/-- Makes a directory and those above it that are not there; the list begins with it and goes up. Directories that are
made stay when another one cannot be made. -/
def makeFrom (disk : Disk) : List Path → Disk × Except FileError Unit
  | [] => (disk, .ok ())
  | path :: above =>
    if path.text.isEmpty then (disk, .ok ())
    else
      match disk.ensureDirectory path with
      | (_, .error .notFound) =>
        match makeFrom disk above with
        | (ready, .ok ()) => ready.ensureDirectory path
        | failed => failed
      | other => other

/-- Makes a directory, together with those above it, unless it is there. -/
def makeDirectories (disk : Disk) (path : Path) : Disk × Except FileError Unit :=
  disk.makeFrom path.ancestors

/-- Writes a text to a file, over what it had. -/
def writeText (disk : Disk) (path : Path) (text : String) : Except FileError Disk := do
  let place ← disk.locate path
  match disk.node? place with
  | some .directory => .error .isDirectory
  | _ => if path.endsInSlash then .error .isDirectory else .ok (disk.set place (.file text.toUTF8))

end Disk

end TypeBindings
