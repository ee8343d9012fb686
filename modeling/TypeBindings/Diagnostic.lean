/-!
# Diagnostics and reports

A diagnostic is one message about a file, with the path of the value it speaks of. A report is a list of diagnostics
and a flag that is false as soon as one of them is an error.
-/

namespace TypeBindings

inductive Severity where
  | error
  | warning
  | info
deriving DecidableEq, Repr

namespace Severity

def all : List Severity := [.error, .warning, .info]

def name : Severity → String
  | .error => "error"
  | .warning => "warning"
  | .info => "info"

end Severity

structure Diagnostic where
  code : String
  severity : Severity
  message : String
  file : String
  path : String
  suggestion : Option String := none
deriving DecidableEq, Repr

structure Report where
  ok : Bool
  entries : List Diagnostic
deriving DecidableEq, Repr

namespace Report

/-- The report with nothing in it. -/
def success : Report := ⟨true, []⟩

def isError (d : Diagnostic) : Bool :=
  d.severity == .error

def ofEntries (entries : List Diagnostic) : Report :=
  ⟨!entries.any isError, entries⟩

/-- Adds an entry at the end. -/
def push (report : Report) (entry : Diagnostic) : Report :=
  ⟨report.ok && !isError entry, report.entries ++ [entry]⟩

/-- Adds the entries of another report one by one; its flag is not looked at. -/
def merge (report other : Report) : Report :=
  other.entries.foldl push report

/-- How many entries have a severity. -/
def count (report : Report) (severity : Severity) : Nat :=
  report.entries.countP (·.severity == severity)

def hasErrors (report : Report) : Bool :=
  !report.ok

end Report

end TypeBindings
