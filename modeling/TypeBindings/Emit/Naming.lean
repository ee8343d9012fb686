import TypeBindings.Sorted
import TypeBindings.Text.Ascii
import TypeBindings.Text.Split

/-!
# Names in generated code

`constantName` and `pascalName` make an identifier of any text. `memberNames` gives the members of one enumeration
different names: a value that is a good name stays as it is at its first occurrence, and every other name that is taken
gets a number.
-/

namespace TypeBindings.Naming

/-- An identifier made of the given letters and digits: an underscore comes first if they begin with a digit, or stands
alone if there are none. -/
def identifierOf (cs : List Char) : String :=
  match cs with
  | [] => "_"
  | c :: _ => if c.isDigit then String.ofList ('_' :: cs) else String.ofList cs

/-- The characters of a constant name so far, last first, and whether the last one was a small letter or a digit. -/
structure ConstantDraft where
  reversed : List Char := []
  afterLower : Bool := false

/-- Adds a character to a constant name. A capital letter after a small one begins a new word, and any run of other
characters ends a word. -/
def ConstantDraft.add (draft : ConstantDraft) (c : Char) : ConstantDraft :=
  if c.isAlphanum then
    let before := if c.isUpper && draft.afterLower then '_' :: draft.reversed else draft.reversed
    ⟨c.toUpper :: before, c.isLower || c.isDigit⟩
  else
    ⟨if draft.reversed.isEmpty || draft.reversed.head? = some '_' then draft.reversed else '_' :: draft.reversed,
      false⟩

/-- The text as a name of capital letters with underscores between its words. -/
def constantName (value : String) : String :=
  let draft := value.toList.foldl ConstantDraft.add {}
  identifierOf (draft.reversed.dropWhile (· = '_')).reverse

/-- The runs of letters and digits in a text. -/
def words (cs : List Char) : List (List Char) :=
  (Text.pieces (fun c => !c.isAlphanum) cs).filter fun word => !word.isEmpty

def capitalWord : List Char → List Char
  | [] => []
  | c :: cs => c.toUpper :: cs

/-- The text as a name whose words begin with capital letters and stand together. -/
def pascalName (value : String) : String :=
  identifierOf ((words value.toList).flatMap capitalWord)

/-! ## Different names -/

/-- The first of `candidate n`, `candidate (n + 1)`, … that is not taken, if one of the next `steps` is free. The
candidates are different, so one that is taken need not be looked for again. -/
def firstFreeFrom (candidate : Nat → String) : (steps : Nat) → (taken : List String) → (n : Nat) → String
  | 0, _, n => candidate n
  | steps + 1, taken, n =>
    if candidate n ∈ taken then firstFreeFrom candidate steps (taken.erase (candidate n)) (n + 1) else candidate n

/-- The first of different candidates that is not taken. There are not more taken names than the list is long. -/
def firstFree (taken : List String) (candidate : Nat → String) : String :=
  firstFreeFrom candidate taken.length taken 1

/-- The name itself, then with `_2`, `_3` and so on behind it. -/
def numbered (base : String) (n : Nat) : String :=
  if n ≤ 1 then base else base ++ "_" ++ toString n

/-- Names the values one by one; `taken` are the names given so far and those kept for values still to come, and `seen`
are the kept values met so far. -/
def nameValues (keep : String → Bool) (rename : String → String) (taken seen : List String) :
    List String → List String
  | [] => []
  | value :: rest =>
    if keep value && !seen.contains value then value :: nameValues keep rename taken (value :: seen) rest
    else
      let name := firstFree taken (numbered (if keep value then value else rename value))
      name :: nameValues keep rename (taken ++ [name]) seen rest

/-- Different names for the values of an enumeration, in order. -/
def memberNames (keep : String → Bool) (rename : String → String) (values : List String) : List String :=
  nameValues keep rename (distinct (values.filter keep)) [] values

end TypeBindings.Naming
