import TypeBindings.Command.Arguments
import TypeBindings.Command.Run

/-!
# The program

The program takes its arguments and a disk, and leaves a disk, two texts and an exit code: 0 for success, 1 for a
failure of the command, and 2 for arguments that it does not understand.
-/

namespace TypeBindings

/-- What the program leaves. -/
structure Ending where
  disk : Disk
  exit : UInt8
  out : String := ""
  err : String := ""

def programName : String := "typegen"

def versionText (command : Option CommandName) : String :=
  programName ++ (match command with
    | some name => "-" ++ name.text
    | none => "") ++ " 0.1.0\n"

def usageText : String :=
  "Usage: typegen [--verbose] <command>\n\n" ++
  "  generate [--input FILE | --builtin NAME] [--output DIR] [--target NAME]...\n" ++
  "           [--component-policy POLICY] [--config FILE]\n" ++
  "  check PATH\n" ++
  "  schema\n" ++
  "  targets\n"

def linesText (lines : List String) : String :=
  Text.concat (lines.map (· ++ "\n"))

/-- The working directory as commands name it. -/
def here : Path := ⟨"."⟩

def Command.run (disk : Disk) : Command → Run
  | .generate args =>
    match Settings.resolve disk args here with
    | .error error => { disk, result := .error error }
    | .ok settings => generateCommand disk settings
  | .check path => checkCommand disk path
  | .schema => schemaCommand disk
  | .targets => targetsCommand disk

/-- How the program ends after a command. -/
def Run.ending (run : Run) : Ending where
  disk := run.disk
  exit := match run.result with
    | .ok true => 0
    | _ => 1
  out := linesText run.out
  err := linesText run.err ++ match run.result with
    | .error error => "error: " ++ error.message ++ "\n"
    | .ok _ => ""

/-- Runs the program. -/
def program (disk : Disk) (arguments : List String) : Ending :=
  match Request.parse arguments with
  | .error error => { disk, exit := 2, err := "error: " ++ error.message ++ "\n\n" ++ usageText }
  | .ok (.version command) => { disk, exit := 0, out := versionText command }
  | .ok .help => { disk, exit := 0, out := usageText }
  | .ok (.run command _) => (command.run disk).ending

end TypeBindings
