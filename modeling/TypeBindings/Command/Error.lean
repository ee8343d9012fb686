import TypeBindings.Backend
import TypeBindings.Config
import TypeBindings.Load
import TypeBindings.Output
import TypeBindings.Catalog

/-!
# Why a command fails
-/

namespace TypeBindings

inductive CommandError where
  | config (error : ConfigError)
  | noSource
  | generate (error : GenerateError)
  | unknownBuiltin (name : String)
  | source (path : Path) (error : LoadError)
  | directory (path : Path) (error : LoadError)
  | check (error : LoadError)
  | fileName (error : OutputError)
  | output (target : Target) (error : OutputError)

def CommandError.message : CommandError → String
  | .config error => error.message
  | .noSource => "No type system given: pass --input FILE, --builtin NAME, or set \"input\" in the config"
  | .generate error => error.message
  | .unknownBuiltin name =>
    "Unknown built-in type system '" ++ name ++ "' (available: " ++ Text.joinWith ", " Catalog.names ++ ")"
  | .source path error => "Failed to load type system '" ++ path.text ++ "': " ++ error.fullMessage
  | .directory path error => "Failed to load '" ++ path.text ++ "': " ++ error.fullMessage
  | .check error => "Failed to load type system: " ++ error.fullMessage
  | .fileName error => error.message
  | .output target error => "Failed to write " ++ target.name ++ " output: " ++ error.message

end TypeBindings
