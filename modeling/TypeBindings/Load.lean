import TypeBindings.Disk.Basic
import TypeBindings.Document

/-!
# Type systems from files

A type system is loaded from one file, or from every file below a directory whose name ends in `.types.json`. A file
that is named and cannot be loaded is an error; of the files of a directory each gives a type system or entries of the
report.
-/

namespace TypeBindings

/-! ## Names of type files -/

/-- The ending of the names of type files. -/
def typeFileEnding : String := ".types.json"

/-- The text before an ending. -/
def Text.before? (ending s : String) : Option String :=
  let cs := s.toList
  if ending.toList.isSuffixOf cs then some (String.ofList (cs.take (cs.length - ending.toList.length))) else none

/-- Whether a file name is that of a type file. -/
def isTypeFileName (name : String) : Bool :=
  typeFileEnding.toList.isSuffixOf name.toList

/-- The name of a file without the ending of type files, or else without that of JSON files. -/
def typeFileStem (name : String) : String :=
  ((Text.before? typeFileEnding name).or (Text.before? ".json" name)).getD name

def Path.isTypeFile (path : Path) : Bool :=
  path.fileName?.any isTypeFileName

def Path.stem? (path : Path) : Option String :=
  path.fileName?.map typeFileStem

/-! ## One file -/

inductive LoadError where
  | notFound (path : Path)
  | unreadable (path : Path) (error : FileError)
  | invalid (file : String) (entries : List Diagnostic)

/-- The first of several diagnostics and how many there are besides. -/
def firstMessage : List Diagnostic → String
  | [] => "unknown error"
  | [only] => only.message ++ " at " ++ only.path
  | first :: rest => first.message ++ " at " ++ first.path ++ s!" (and {rest.length} more)"

def LoadError.message : LoadError → String
  | .notFound path => "Type system not found: " ++ path.text
  | .unreadable path error => "I/O error reading " ++ path.text ++ ": " ++ error.message
  | .invalid file entries => "Invalid type system " ++ file ++ ": " ++ firstMessage entries

/-- The message of an error followed by that of the error behind it. -/
def LoadError.fullMessage (error : LoadError) : String :=
  match error with
  | .unreadable _ cause => error.message ++ ": " ++ cause.message
  | _ => error.message

def loadFile (disk : Disk) (path : Path) : Except LoadError TypeSystem :=
  if !disk.isFile path then .error (.notFound path)
  else
    match disk.readText path with
    | .error error => .error (.unreadable path error)
    | .ok text => (TypeSystem.parse path.text text).mapError (.invalid path.text)

/-! ## A directory -/

/-- A type system and the file it comes from, seen from the directory that was loaded. -/
structure LoadedSystem where
  name : String
  file : String
  system : TypeSystem

/-- A file that cannot be read as text. -/
def Diagnostic.unreadable (file : String) (error : FileError) : Diagnostic where
  code := "E_PARSE_ERROR"
  severity := .error
  message := "Failed to read file: " ++ error.message
  file := file
  path := "$"

/-- What one type file of a directory gives. -/
def loadEntry (disk : Disk) (directory : Path) (place : Place) : Except (List Diagnostic) LoadedSystem :=
  let file := Text.joinWith "/" place
  match disk.readText (directory.enter place) with
  | .error error => .error [.unreadable file error]
  | .ok text => do
    let system ← TypeSystem.parse file text
    return ⟨typeFileStem (place.getLastD file), file, system⟩

/-- The type files below a directory, in order, as far as the directories above them can be opened. -/
def typeFiles (disk : Disk) (path : Path) (directory : Place) : List Place :=
  (disk.filesBelow directory).filter fun place => place.getLast?.any isTypeFileName && disk.opensAbove path place

/-- Adds what one file gives to what the files before it gave. -/
def addLoaded (loaded : List LoadedSystem × Report) (result : Except (List Diagnostic) LoadedSystem) :
    List LoadedSystem × Report :=
  match result with
  | .ok system => (loaded.1 ++ [system], loaded.2)
  | .error entries => (loaded.1, entries.foldl Report.push loaded.2)

def loadDirectory (disk : Disk) (path : Path) : Except LoadError (List LoadedSystem × Report) :=
  match disk.find path, disk.locate path with
  | .ok .directory, .ok place =>
    let results := (typeFiles disk path place).map (loadEntry disk path)
    .ok (results.foldl addLoaded ([], .success))
  | _, _ => .error (.notFound path)

end TypeBindings
