import TypeBindings.Command.Settings
import TypeBindings.Json.Printer
import TypeBindings.Validation.Rules
import TypeBindings.Wire.Schema

/-!
# The commands

A command takes a disk and leaves a disk, the lines that it writes, and whether it succeeded.
-/

namespace TypeBindings

/-- What a command leaves. -/
structure Run where
  disk : Disk
  out : List String := []
  err : List String := []
  result : Except CommandError Bool

namespace Run

/-- The run with lines written before it. -/
def after (lines : List String) (run : Run) : Run :=
  { run with out := lines ++ run.out }

end Run

/-- The lines that show a diagnostic. -/
def Diagnostic.shown (d : Diagnostic) : List String :=
  ("  " ++ d.severity.name ++ " [" ++ d.code ++ "] " ++ d.message ++ " (" ++ d.file ++ ":" ++ d.path ++ ")") ::
    match d.suggestion with
    | some text => ["    hint: " ++ text]
    | none => []

/-! ## Generating -/

/-- The type system of a source, and the name under which it is spoken of. -/
def Source.load (disk : Disk) : Source → Except CommandError (TypeSystem × String)
  | .builtin name => (Catalog.find? name).elim (.error (.unknownBuiltin name)) fun system =>
    .ok (system, "builtin:" ++ name)
  | .file path => do
    let system ← (loadFile disk path).mapError (.source path)
    return (system, path.text)

/-- Fails if one of the file names is not safe. -/
def checkNames (results : List (Target × FileSet)) : Except CommandError Unit :=
  results.forM fun (_, files) => files.names.forM fun name => do
    let _ ← (safePath name).mapError .fileName
    return ()

/-- The lines about the files of a target. -/
def writtenLines (target : Target) (directory : Path) (files : FileSet) : List String :=
  ("✓ " ++ target.name ++ ": " ++ toString files.files.length ++ " file(s) → " ++ directory.text) ::
    files.names.map ("  → " ++ ·)

/-- Writes the files of each target to a directory of its own, up to the first that fails. -/
def writeTargets (output : Path) (disk : Disk) : List (Target × FileSet) → Run
  | [] => { disk, result := .ok true }
  | (target, files) :: rest =>
    let directory := output.join ⟨target.name⟩
    match disk.writeFiles directory files with
    | (written, .error error) => { disk := written, result := .error (.output target error) }
    | (written, .ok _) => (writeTargets output written rest).after (writtenLines target directory files)

/-- Generates the files of a valid type system; no file is written unless all names are safe. -/
def generateValid (disk : Disk) (settings : Settings) (system : TypeSystem) : Run :=
  match (Registry.builtin.generateAll settings.policy settings.targets system).mapError CommandError.generate with
  | .error error => { disk, result := .error error }
  | .ok results =>
    match checkNames results with
    | .error error => { disk, result := .error error }
    | .ok () => writeTargets settings.output disk results

/-- Loads a type system, checks it, and writes its files if there are no errors. -/
def generateCommand (disk : Disk) (settings : Settings) : Run :=
  match settings.source.load disk with
  | .error error => { disk, result := .error error }
  | .ok (system, label) =>
    let report := system.validate label
    let lines := ("Generating from " ++ label) :: report.entries.flatMap Diagnostic.shown
    if report.hasErrors then
      { disk
        out := lines
        err := ["✗ " ++ toString (report.count .error) ++ " validation error(s); fix them before generating"]
        result := .ok false }
    else (generateValid disk settings system).after lines

/-! ## Checking -/

/-- What there is to say about a file or a directory, and how many types it holds. -/
structure Survey where
  entries : List Diagnostic := []
  types : Nat := 0

def Survey.add (survey : Survey) (system : TypeSystem) (file : String) : Survey :=
  ⟨survey.entries ++ (system.validate file).entries, survey.types + system.definitions.length⟩

def surveyFile (disk : Disk) (path : Path) : Except CommandError Survey :=
  match loadFile disk path with
  | .ok system => .ok (Survey.add {} system path.text)
  | .error (.invalid _ entries) => .ok { entries }
  | .error error => .error (.check error)

def surveyDirectory (disk : Disk) (path : Path) : Except CommandError Survey := do
  let (systems, report) ← (loadDirectory disk path).mapError (.directory path)
  return systems.foldl (fun survey loaded => survey.add loaded.system loaded.file) { entries := report.entries }

def survey (disk : Disk) (path : Path) : Except CommandError Survey :=
  if disk.isDirectory path then surveyDirectory disk path else surveyFile disk path

def Survey.count (survey : Survey) (severity : Severity) : Nat :=
  survey.entries.countP (·.severity == severity)

/-- The last line of a check. -/
def Survey.verdict (survey : Survey) : String :=
  let errors := survey.count .error
  let warnings := survey.count .warning
  if errors = 0 then
    if warnings = 0 then "✓ Type system is valid (" ++ toString survey.types ++ " types)"
    else "⚠ Valid with " ++ toString warnings ++ " warning(s)"
  else "✗ " ++ toString errors ++ " error(s), " ++ toString warnings ++ " warning(s)"

/-- Loads and checks a file or all type files of a directory. -/
def checkCommand (disk : Disk) (path : Path) : Run :=
  let opening := "Checking " ++ (disk.fullPath? path).getD path.text
  match survey disk path with
  | .error error => { disk, out := [opening], result := .error error }
  | .ok survey =>
    { disk
      out := opening :: survey.entries.flatMap Diagnostic.shown ++ ["", survey.verdict]
      result := .ok (survey.count .error = 0) }

/-! ## Lists -/

/-- Prints the schema of type system documents. -/
def schemaCommand (disk : Disk) : Run :=
  { disk, out := [publishedSchema.pretty], result := .ok true }

/-- The text with spaces behind it up to a width. -/
def padded (width : Nat) (text : String) : String :=
  text ++ String.ofList (List.replicate (width - text.length) ' ')

/-- Lists the targets. -/
def targetsCommand (disk : Disk) : Run :=
  { disk
    out := "Targets" :: Registry.builtin.backends.map fun backend =>
      "  " ++ padded 12 backend.target.name ++ " " ++ backend.layout.description
    result := .ok true }

end TypeBindings
