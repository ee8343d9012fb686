import TypeBindings.Emit.Line
import TypeBindings.Sorted

/-!
# The state of writing a file

While a file is written the context holds the level of indentation and the imports that its declarations need, each
once and in the order in which they were first needed.
-/

namespace TypeBindings

/-- Adds an import at the end, unless it is there. -/
def addImport (imports : List String) (name : String) : List String :=
  if imports.contains name then imports else imports ++ [name]

def addImports (imports names : List String) : List String :=
  names.foldl addImport imports

/-- What a definition becomes in a language: its lines, and the imports they need in the order of their use. -/
structure Declaration where
  lines : List Line
  imports : List String := []

structure Context where
  style : IndentStyle
  level : Nat := 0
  imports : List String := []
deriving Repr

namespace Context

/-- The indentation of the current level. -/
def indent (ctx : Context) : String :=
  ctx.style.indent ctx.level

/-- The indentation of one level more. -/
def innerIndent (ctx : Context) : String :=
  ctx.style.indent (ctx.level + 1)

def deeper (ctx : Context) : Context :=
  { ctx with level := ctx.level + 1 }

/-- One level less, but not below zero. -/
def shallower (ctx : Context) : Context :=
  { ctx with level := ctx.level - 1 }

def needs (ctx : Context) (name : String) : Context :=
  { ctx with imports := addImport ctx.imports name }

/-- Takes all imports out, sorted. -/
def takeImports (ctx : Context) : List String × Context :=
  (sortTexts ctx.imports, { ctx with imports := [] })

/-- Writes a declaration at the current level. -/
def emit (ctx : Context) (declaration : Declaration) : String × Context :=
  (renderLines ctx.style ctx.level declaration.lines,
    { ctx with imports := addImports ctx.imports declaration.imports })

end Context

end TypeBindings
