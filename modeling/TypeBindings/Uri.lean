import TypeBindings.Text.Ascii
import TypeBindings.Text.Concat
import TypeBindings.Text.Split

/-!
# References to documents

A reference names a document by scheme, authority, path and query, and a part of that document by a fragment.
`Uri.parse` takes a text apart and tells the first place where it is no reference. `Uri.resolve` fills in what a
reference leaves out, and `Uri.normal` gives references to the same document the same text.
-/

namespace TypeBindings

/-- A reference as it is written, without the marks between its parts. -/
structure Uri where
  scheme : Option String := none
  authority : Option String := none
  path : String := ""
  query : Option String := none
  fragment : Option String := none
deriving DecidableEq, Repr

namespace Uri

/-- Why a text is no reference; the index counts bytes. -/
inductive Fault where
  | unexpected (index : Nat)
  | badOctet (index : Nat)
deriving DecidableEq, Repr

def Fault.message : Fault → String
  | .unexpected index => s!"unexpected character at index {index}"
  | .badOctet index => s!"invalid percent-encoded octet at index {index}"

/-! ## Characters -/

def isSchemeChar (c : Char) : Bool := c.isAlphanum || "+-.".toList.contains c

/-- A character that means the same whether it is written as it is or by its number. -/
def isUnreserved (c : Char) : Bool := c.isAlphanum || "-._~".toList.contains c

/-- A character of the first segment of a path that has no scheme before it. -/
def isFirstChar (c : Char) : Bool := isUnreserved c || "!$&'()*+,;=@".toList.contains c

def isPathChar (c : Char) : Bool := isFirstChar c || c == ':' || c == '/'

def isAuthorityChar (c : Char) : Bool := isFirstChar c || ":[]".toList.contains c

/-- A character of a query or a fragment. -/
def isTailChar (c : Char) : Bool := isPathChar c || c == '?'

/-! ## Parts of a text -/

/-- Goes on over allowed characters and bytes by number; `taken` are the characters before, last first, and `index` is
where the text begins. -/
def runAfter (allowed : Char → Bool) (taken : List Char) (index : Nat) :
    List Char → Except Fault (List Char × List Char)
  | [] => .ok (taken.reverse, [])
  | c :: cs =>
    if c = '%' then
      match cs with
      | d :: e :: rest =>
        if (Text.hexValue? d).isSome && (Text.hexValue? e).isSome then
          runAfter allowed (e :: d :: c :: taken) (index + 3) rest
        else .error (.badOctet index)
      | _ => .error (.badOctet index)
    else if allowed c then runAfter allowed (c :: taken) (index + 1) cs
    else .ok (taken.reverse, c :: cs)

/-- The longest beginning of allowed characters and of bytes by number, and the rest. -/
def run (allowed : Char → Bool) (index : Nat) (cs : List Char) : Except Fault (List Char × List Char) :=
  runAfter allowed [] index cs

/-- A part of a reference that begins with a mark, and the index and the text after it. -/
def marked (mark : Char) (index : Nat) (cs : List Char) : Except Fault (Option String × Nat × List Char) :=
  match cs with
  | [] => .ok (none, index, [])
  | c :: rest =>
    if c = mark then do
      let (taken, rest) ← run isTailChar (index + 1) rest
      return (some (String.ofList taken), index + 1 + taken.length, rest)
    else .ok (none, index, cs)

/-- Adds the query and the fragment, which must end the text. -/
def parseTail (uri : Uri) (index : Nat) (cs : List Char) : Except Fault Uri := do
  let (query, index, cs) ← marked '?' index cs
  let (fragment, index, cs) ← marked '#' index cs
  if cs.isEmpty then return { uri with query, fragment } else .error (.unexpected index)

/-- Adds the path and what follows it. -/
def parsePath (uri : Uri) (index : Nat) (cs : List Char) : Except Fault Uri := do
  let (path, rest) ← run isPathChar index cs
  parseTail { uri with path := uri.path ++ String.ofList path } (index + path.length) rest

/-- Adds all that follows two slashes. -/
def parseAuthority (uri : Uri) (index : Nat) (cs : List Char) : Except Fault Uri := do
  let (authority, rest) ← run isAuthorityChar index cs
  parsePath { uri with authority := some (String.ofList authority) } (index + authority.length) rest

/-- The parts of a reference without a scheme. The first segment of its path has no colon. -/
def parseRelative (cs : List Char) : Except Fault Uri :=
  match cs with
  | '/' :: '/' :: rest => parseAuthority {} 2 rest
  | _ => do
    let (first, rest) ← run isFirstChar 0 cs
    if rest.head? = some ':' then .error (.unexpected first.length)
    else parsePath { path := String.ofList first } first.length rest

/-- The parts of a text as a reference. -/
def parse (text : String) : Except Fault Uri :=
  let cs := text.toList
  let name := cs.takeWhile isSchemeChar
  let uri : Uri := { scheme := some (String.ofList name) }
  match cs.drop name.length with
  | ':' :: rest =>
    if !(name.head?.any Char.isAlpha) then .error (.unexpected 0)
    else match rest with
      | '/' :: '/' :: more => parseAuthority uri (name.length + 3) more
      | _ => parsePath uri (name.length + 1) rest
  | _ => parseRelative cs

/-! ## Documents -/

/-- Takes single dots and pairs of dots out of the segments of a path; `above` are the segments before them, last
first. A path that ends in dots ends in a slash without them. -/
def walk (above : List String) : List String → List String
  | [] => above.reverse
  | segment :: rest =>
    let next := if segment = ".." then above.tail else if segment = "." then above else segment :: above
    if rest.isEmpty && (segment = ".." || segment = ".") then ("" :: next).reverse else walk next rest

/-- A path without segments of dots, if it begins with a slash. -/
def plainPath (path : String) : String :=
  match path.toList with
  | '/' :: rest => "/" ++ Text.joinWith "/" (walk [] (Text.splitAt '/' (String.ofList rest)))
  | _ => path

/-- A path up to its last slash. -/
def directory (path : String) : String :=
  String.ofList (path.toList.reverse.dropWhile (· ≠ '/')).reverse

/-- The reference that another one means in the document with the given reference. -/
def resolve (base uri : Uri) : Uri :=
  if uri.scheme.isSome then { uri with path := plainPath uri.path }
  else if uri.authority.isSome then { uri with scheme := base.scheme, path := plainPath uri.path }
  else if uri.path.isEmpty then { base with query := uri.query.or base.query, fragment := uri.fragment }
  else
    let path := if uri.path.toList.head? = some '/' then uri.path else directory base.path ++ uri.path
    { base with path := plainPath path, query := uri.query, fragment := uri.fragment }

/-- A text in which unreserved characters are written as they are, and numbers of bytes with capital letters. -/
def normalOctets : List Char → List Char
  | c :: d :: e :: rest =>
    match c, Text.hexValue? d, Text.hexValue? e with
    | '%', some high, some low =>
      let meant := Char.ofNat (high * 16 + low)
      (if isUnreserved meant then [meant] else ['%', d.toUpper, e.toUpper]) ++ normalOctets rest
    | _, _, _ => c :: normalOctets (d :: e :: rest)
  | cs => cs

/-- An authority with its host in small letters. -/
def normalAuthority (authority : String) : String :=
  let host := (authority.toList.reverse.takeWhile (· ≠ '@')).reverse
  let user := authority.toList.take (authority.length - host.length)
  String.ofList (normalOctets (user ++ host.map Char.toLower))

/-- The form of a reference that all references to the same document share. -/
def normal (uri : Uri) : Uri :=
  { uri with
    scheme := uri.scheme.map Text.lower
    authority := uri.authority.map normalAuthority
    path := plainPath (String.ofList (normalOctets uri.path.toList))
    query := uri.query.map fun query => String.ofList (normalOctets query.toList) }

/-- The text of a reference without its fragment. -/
def documentText (uri : Uri) : String :=
  (uri.scheme.map (· ++ ":")).getD "" ++ (uri.authority.map ("//" ++ ·)).getD "" ++ uri.path ++
    (uri.query.map ("?" ++ ·)).getD ""

end Uri

end TypeBindings
