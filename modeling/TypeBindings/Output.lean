import TypeBindings.Disk.Basic
import TypeBindings.FileSet

/-!
# Writing generated files

Generated files are written below a directory. Every name is checked before the first file is written: a name is safe
if all its components are plain names, so that it cannot lead out of the directory.
-/

namespace TypeBindings

inductive OutputError where
  | emptyName
  | escapingName (name : String)
  | makeDirectory (path : Path) (error : FileError)
  | write (path : Path) (error : FileError)
deriving DecidableEq, Repr

def OutputError.message : OutputError → String
  | .emptyName => "Generated file name must not be empty"
  | .escapingName name => "Generated file name '" ++ name ++ "' escapes the output directory"
  | .makeDirectory path error => "Failed to create directory '" ++ path.text ++ "': " ++ error.message
  | .write path error => "Failed to write '" ++ path.text ++ "': " ++ error.message

def Path.Component.isName : Path.Component → Bool
  | .name _ => true
  | _ => false

/-- The name of a generated file as a path, if it is safe. -/
def safePath (name : String) : Except OutputError Path :=
  if name.isEmpty then .error .emptyName
  else if (Path.mk name).components.all Path.Component.isName then .ok ⟨name⟩
  else .error (.escapingName name)

/-- The paths of files below a directory, with their contents. -/
def placeFiles (directory : Path) (files : List (String × String)) : Except OutputError (List (Path × String)) :=
  files.mapM fun (name, content) => do return (directory.join (← safePath name), content)

namespace Disk

/-- Makes the directory that a file is to stand in. -/
def makeParent (disk : Disk) (path : Path) : Disk × Except OutputError Unit :=
  match path.parent? with
  | none => (disk, .ok ())
  | some parent =>
    let (ready, result) := disk.makeDirectories parent
    (ready, result.mapError (.makeDirectory parent))

/-- Writes one file together with the directories above it. -/
def writeFile (disk : Disk) (path : Path) (content : String) : Disk × Except OutputError Unit :=
  match disk.makeParent path with
  | (ready, .error error) => (ready, .error error)
  | (ready, .ok ()) =>
    match ready.writeText path content with
    | .error error => (ready, .error (.write path error))
    | .ok written => (written, .ok ())

/-- Writes files one by one, up to the first that fails. -/
def writeEach (disk : Disk) : List (Path × String) → Disk × Except OutputError Unit
  | [] => (disk, .ok ())
  | (path, content) :: rest =>
    match disk.writeFile path content with
    | (written, .ok ()) => written.writeEach rest
    | (written, .error error) => (written, .error error)

/-- Writes a set of files below a directory and gives their paths. -/
def writeFiles (disk : Disk) (directory : Path) (files : FileSet) : Disk × Except OutputError (List Path) :=
  match placeFiles directory files.files with
  | .error error => (disk, .error error)
  | .ok placed =>
    let (written, result) := disk.writeEach placed
    (written, result.map fun _ => placed.map Prod.fst)

end Disk

end TypeBindings
