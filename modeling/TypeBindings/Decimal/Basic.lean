/-!
# Decimal numbers and their text

A decimal is a sign, a whole number of digits and a power of ten. `Decimal.text` writes it positionally when its
leading digit stands from five places after the point to sixteen places before it, and otherwise with an exponent that
always has a sign.
-/

namespace TypeBindings

/-- The number `± digits · 10 ^ exponent`. -/
structure Decimal where
  negative : Bool
  digits : Nat
  exponent : Int
deriving DecidableEq, Repr

namespace Decimal

/-- Divides `n` by ten while that is exact, at most `steps` times; gives the quotient and the number of divisions. -/
def stripZeros : (steps : Nat) → Nat → Nat × Nat
  | 0, n => (n, 0)
  | steps + 1, n =>
    if n % 10 = 0 ∧ n ≠ 0 then
      let (m, k) := stripZeros steps (n / 10)
      (m, k + 1)
    else (n, 0)

/-- The same number with no zero at the end of its digits. -/
def normalize (d : Decimal) : Decimal :=
  let (m, k) := stripZeros d.digits.log2.succ d.digits
  if m = 0 then ⟨d.negative, 0, 0⟩ else ⟨d.negative, m, d.exponent + k⟩

/-- Which numbers are written without an exponent: those whose leading digit is worth `10 ^ e` for `lowest ≤ e` and
`e ≤ highest`. -/
structure Style where
  lowest : Int
  highest : Int

/-- Numbers in JSON text keep their point from `0.00001` to below `10 ^ 16`. -/
def jsonStyle : Style := ⟨-5, 15⟩

/-- The text of a decimal whose digits do not end in zero; a whole number is written with one zero after its point. -/
def textWith (style : Style) (d : Decimal) : String :=
  let sign := if d.negative then "-" else ""
  let digits := (toString d.digits).toList
  let lead := d.exponent + digits.length - 1
  let zeros (n : Nat) : List Char := List.replicate n '0'
  if d.digits = 0 then sign ++ "0.0"
  else if style.lowest ≤ lead ∧ lead ≤ style.highest then
    if 0 ≤ d.exponent then sign ++ String.ofList (digits ++ zeros d.exponent.toNat ++ ['.', '0'])
    else if 0 ≤ lead then
      let whole := lead.toNat + 1
      sign ++ String.ofList (digits.take whole ++ ['.'] ++ digits.drop whole)
    else sign ++ String.ofList (['0', '.'] ++ zeros (-lead - 1).toNat ++ digits)
  else
    let mantissa := match digits with
      | [c] => [c]
      | c :: rest => c :: '.' :: rest
      | [] => []
    sign ++ String.ofList mantissa ++ (if lead < 0 then "e-" else "e+") ++ toString lead.natAbs

def text (d : Decimal) : String :=
  textWith jsonStyle d.normalize

end Decimal

end TypeBindings
