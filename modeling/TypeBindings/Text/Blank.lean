/-!
# Blank characters and trimming

`isBlank` is the Unicode property White_Space. Trimming removes blank characters from the ends of a text; it is
defined on lists of characters, and the functions on `String` are the same ones seen through `String.toList`.
-/

namespace TypeBindings.Text

/-- The characters with the Unicode property White_Space. -/
def isBlank (c : Char) : Bool :=
  let n := c.toNat
  (9 ≤ n && n ≤ 13) || n == 0x20 || n == 0x85 || n == 0xA0 || n == 0x1680 || (0x2000 ≤ n && n ≤ 0x200A) ||
    n == 0x2028 || n == 0x2029 || n == 0x202F || n == 0x205F || n == 0x3000

def dropBlankEnd (cs : List Char) : List Char :=
  (cs.reverse.dropWhile isBlank).reverse

def dropBlankEnds (cs : List Char) : List Char :=
  dropBlankEnd (cs.dropWhile isBlank)

/-- The text without the blank characters at its end. -/
def trimEnd (s : String) : String :=
  String.ofList (dropBlankEnd s.toList)

/-- The text without the blank characters at both ends. -/
def trim (s : String) : String :=
  String.ofList (dropBlankEnds s.toList)

end TypeBindings.Text
