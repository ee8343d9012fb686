import TypeBindings.TypeSystem

/-!
# Built-in type systems

The catalog has one type system, the messages of a chat panel beside a text editor.
-/

namespace TypeBindings.Catalog

def text : Shape := .primitive "string"

def number : Shape := .primitive "number"

def anything : Shape := .primitive "any"

def needs (name : String) (shape : Shape) : Property := { name, shape, required := true }

def takes (name : String) (shape : Shape) : Property := { name, shape, required := false }

def chatDefinitions : List Definition := [
  (Definition.record "Position" [needs "line" number, needs "character" number]).describe
    "Represents a position in a text document",
  (Definition.record "Range" [needs "start" (.reference "Position"), needs "end" (.reference "Position")]).describe
    "Represents a range in a text document",
  (Definition.record "TextDocumentIdentifier" [needs "uri" text]).describe "Identifies a text document",
  (Definition.record "QuickActionCommand" [needs "command" text, takes "arguments" (.array anything)]).describe
    "Represents a quick action command",
  (Definition.record "ChatPrompt" [takes "prompt" text, takes "escapedPrompt" text, takes "command" text]).describe
    "Represents a chat prompt",
  (Definition.record "PartialResultParams" [takes "partialResultToken" anything]).describe
    "Parameters for partial results",
  (Definition.record "CursorStateWithPosition" [needs "position" (.reference "Position")]).describe
    "Cursor state with position",
  (Definition.record "CursorStateWithRange" [needs "range" (.reference "Range")]).describe
    "Cursor state with range",
  (Definition.union "CursorState" ["CursorStateWithPosition", "CursorStateWithRange"]).describe
    "Represents the state of a cursor",
  ((Definition.record "ChatParams" [
      needs "tabId" text,
      needs "prompt" (.reference "ChatPrompt"),
      takes "cursorState" (.array (.reference "CursorState")),
      takes "textDocument" (.reference "TextDocumentIdentifier"),
      { takes "context" (.array (.reference "QuickActionCommand")) with
        description := some <| "Context of the current chat message to be handled by the servers. " ++
          "Context can be added through QuickActionCommand triggered by `@`." }]).describe
    "Parameters for a chat request").extending "PartialResultParams"]

def chat : TypeSystem :=
  .ofDefinitions (some "com.example.chat") chatDefinitions

/-- The built-in type systems by name. -/
def entries : List (String × TypeSystem) := [("chat", chat)]

def names : List String := entries.map Prod.fst

def find? (name : String) : Option TypeSystem :=
  entries.lookup name

end TypeBindings.Catalog
