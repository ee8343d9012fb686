import TypeBindings.Text.Concat

/-!
# Lines of source code

A declaration is a list of lines. A line knows how many levels deeper it stands than the declaration begins, and not
where the declaration itself stands: `renderLines` puts the indentation in front. An empty line is written without
indentation.
-/

namespace TypeBindings

/-- How one level of indentation is written. -/
inductive IndentStyle where
  | spaces (width : Nat)
  | tabs
deriving DecidableEq, Repr

/-- The indentation of a level. -/
def IndentStyle.indent : IndentStyle → (level : Nat) → String
  | .spaces width, level => String.ofList (List.replicate (level * width) ' ')
  | .tabs, level => String.ofList (List.replicate level '\t')

structure Line where
  depth : Nat
  text : String
deriving DecidableEq, Repr

namespace Line

/-- The text of a line that begins at a level, with its end. -/
def render (style : IndentStyle) (level : Nat) (line : Line) : String :=
  if line.text.isEmpty then "\n" else style.indent (level + line.depth) ++ line.text ++ "\n"

/-- Lines of the given texts at one depth. -/
def block (depth : Nat) (texts : List String) : List Line :=
  texts.map (⟨depth, ·⟩)

def blank : Line := ⟨0, ""⟩

end Line

/-- The text of lines that begin at a level. -/
def renderLines (style : IndentStyle) (level : Nat) (lines : List Line) : String :=
  Text.concat (lines.map (Line.render style level))

end TypeBindings
