import TypeBindings.Json.Basic
import TypeBindings.Uri

/-!
# References in a JSON value

The document that a value stands for is called `json-schema:///`, and no other document is at hand. A reference to it
ends in a number sign and a pointer: nothing for the whole document, or a slash before the key or index of each step. In
the steps `~1` stands for a slash and `~0` for a tilde.
-/

namespace TypeBindings.Json

inductive ReferenceError where
  | invalid (text : String) (fault : Uri.Fault)
  | unavailable (uri : Uri)
  | nowhere (pointer : String)
  | badIndex (pointer index : String)
  | badBytes (pointer : String)
  | noAnchor (name : String)
  | badAnchor (name : String)
deriving DecidableEq, Repr

/-- Why a document cannot be had. -/
def unavailableReason (scheme : String) : String :=
  if scheme = "file" then "No such file or directory (os error 2)" else "Unknown scheme " ++ scheme

def ReferenceError.message : ReferenceError → String
  | .invalid text fault => "Invalid URI reference '" ++ text ++ "': " ++ fault.message
  | .unavailable uri =>
    "Resource '" ++ uri.documentText ++ "' is not present in a registry and retrieving it failed: " ++
      unavailableReason (uri.scheme.getD "")
  | .nowhere pointer => "Pointer '" ++ pointer ++ "' does not exist"
  | .badIndex pointer index => "Failed to parse array index '" ++ index ++ "' in pointer '" ++ pointer ++ "'"
  | .badBytes pointer =>
    "Invalid percent encoding in pointer '" ++ pointer ++ "': the decoded bytes do not represent valid UTF-8"
  | .noAnchor name => "Anchor '" ++ name ++ "' does not exist"
  | .badAnchor name => "Anchor '" ++ name ++ "' is invalid"

namespace Pointer

/-- A key with its escapes undone. -/
def unescape : List Char → List Char
  | [] => []
  | [c] => [c]
  | c :: d :: rest =>
    if c = '~' then
      (if d = '1' then ['/'] else if d = '0' then ['~'] else [c, d]) ++ unescape rest
    else c :: unescape (d :: rest)

/-- The bytes of a text in which bytes are written with percent signs; a percent sign that is not followed by two
hexadecimal digits stands for itself. -/
def percentBytes : List Char → List UInt8
  | c :: d :: e :: rest =>
    match c, Text.hexValue? d, Text.hexValue? e with
    | '%', some high, some low => (high * 16 + low).toUInt8 :: percentBytes rest
    | _, _, _ => c.toString.toUTF8.toList ++ percentBytes (d :: e :: rest)
  | cs => (String.ofList cs).toUTF8.toList

/-- The text that is meant by one with percent signs. -/
def percentDecoded? (text : String) : Option String :=
  if text.toList.contains '%' then String.fromUTF8? ⟨(percentBytes text.toList).toArray⟩ else some text

/-- The largest index that is read. -/
def maxIndex : Nat := 18446744073709551615

/-- An index in a list: digits, with a plus sign before them or not. -/
def index? (segment : String) : Option Nat :=
  let digits := match segment.toList with
    | '+' :: rest => rest
    | cs => cs
  let value := digits.foldl (fun n c => 10 * n + (c.toNat - 48)) 0
  if digits.isEmpty || !digits.all Char.isDigit || maxIndex < value then none else some value

/-- Goes down into a value step by step. -/
def follow (pointer : String) : List String → Json → Except ReferenceError Json
  | [], value => .ok value
  | segment :: rest, .arr items =>
    match index? segment with
    | none => .error (.badIndex pointer segment)
    | some i =>
      match items[i]? with
      | some item => follow pointer rest item
      | none => .error (.nowhere pointer)
  | segment :: rest, value =>
    match value.member? (String.ofList (unescape segment.toList)) with
    | some member => follow pointer rest member
    | none => .error (.nowhere pointer)

end Pointer

/-- The reference of the document itself. -/
def ownUri : Uri := { scheme := some "json-schema", authority := some "", path := "/" }

/-- The parts of a reference from within the document. -/
def parseReference (reference : String) : Except ReferenceError Uri :=
  (Uri.parse reference).mapError (.invalid reference)

/-- Whether the document that a reference means is at hand. -/
def requireOwn (uri : Uri) : Except ReferenceError Unit :=
  let target := (ownUri.resolve uri).normal
  if target.documentText = ownUri.documentText then .ok () else .error (.unavailable target)

/-- The part of a document that a reference means. Parts have no names of their own. -/
def referred (document : Json) (reference : String) : Except ReferenceError Json := do
  let uri ← parseReference reference
  requireOwn uri
  match (uri.fragment.getD "").toList with
  | [] => return document
  | '/' :: rest =>
    let pointer := String.ofList ('/' :: rest)
    match Pointer.percentDecoded? (String.ofList rest) with
    | some path => Pointer.follow pointer (Text.splitAt '/' path) document
    | none => .error (.badBytes pointer)
  | name =>
    if name.contains '/' then .error (.badAnchor (String.ofList name)) else .error (.noAnchor (String.ofList name))

end TypeBindings.Json
