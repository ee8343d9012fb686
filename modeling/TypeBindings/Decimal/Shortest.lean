import TypeBindings.Decimal.Basic

/-!
# The shortest decimal of a binary number

A finite binary64 number is `m · 2 ^ q`. All real numbers between its two midpoints round to it, the midpoints
themselves exactly when `m` is even. `shortest` gives, of the decimals in that interval with the fewest digits, one
nearest to the number: for one digit, two digits and so on it looks at the two neighbours of the number on that
decimal grid, and the first grid with a neighbour in the interval decides.

All comparisons are between whole numbers: the number and its midpoints are given as numerators over one denominator.
-/

namespace TypeBindings.Decimal

/-- A positive binary number and the interval of reals that round to it, as numerators over `den`. -/
structure Rounding where
  value : Nat
  low : Nat
  high : Nat
  den : Nat
  closed : Bool

namespace Rounding

/-- The interval of `m · 2 ^ q`; `narrow` says that the next lower number is half as far away as the next higher. -/
def ofBinary (m : Nat) (q : Int) (narrow : Bool) : Rounding :=
  let scale := Nat.pow 2 q.toNat
  { value := 4 * m * scale
    low := (if narrow then 4 * m - 1 else 4 * m - 2) * scale
    high := (4 * m + 2) * scale
    den := 4 * Nat.pow 2 (-q).toNat
    closed := m % 2 == 0 }

/-- Whether `n · 10 ^ e` rounds to the number. -/
def contains (r : Rounding) (n : Nat) (e : Int) : Bool :=
  let x := n * Nat.pow 10 e.toNat * r.den
  let s := Nat.pow 10 (-e).toNat
  if r.closed then r.low * s ≤ x && x ≤ r.high * s else r.low * s < x && x < r.high * s

/-- The exponent of the leading decimal digit of the number. -/
def lead (r : Rounding) : Int :=
  if r.den ≤ r.value then ((toString (r.value / r.den)).length : Int) - 1
  else
    match (List.range 400).find? fun k => r.den ≤ r.value * Nat.pow 10 k with
    | some k => -(k : Int)
    | none => -400

/-- The best decimal on the grid of multiples of `10 ^ e`, if one rounds to the number. -/
def onGrid? (r : Rounding) (e : Int) : Option Nat :=
  let num := r.value * Nat.pow 10 (-e).toNat
  let den := r.den * Nat.pow 10 e.toNat
  let below := num / den
  let rest := num % den
  match r.contains below e, r.contains (below + 1) e with
  | true, true => if 2 * rest < den ∨ (2 * rest = den ∧ below % 2 = 0) then some below else some (below + 1)
  | true, false => some below
  | false, true => some (below + 1)
  | false, false => none

/-- The first grid that has a decimal of the number, from coarse to fine. -/
def search (r : Rounding) : (grids : Nat) → Int → Nat × Int
  | 0, e => (r.value / r.den, e)
  | grids + 1, e =>
    match r.onGrid? e with
    | some n => (n, e)
    | none => search r grids (e - 1)

end Rounding

/-- The shortest decimal that rounds to a finite binary64 number. Seventeen digits always suffice. -/
def ofFloat (x : Float) : Decimal :=
  let bits := x.toBits.toNat
  let negative := bits / Nat.pow 2 63 == 1
  let exponent := bits / Nat.pow 2 52 % Nat.pow 2 11
  let fraction := bits % Nat.pow 2 52
  let m := if exponent = 0 then fraction else fraction + Nat.pow 2 52
  if m = 0 then ⟨negative, 0, 0⟩
  else
    let q : Int := (if exponent = 0 then 1 else exponent : Nat) - 1075
    let r := Rounding.ofBinary m q (fraction == 0 && decide (1 < exponent))
    let (n, e) := r.search 17 r.lead
    (⟨negative, n, e⟩ : Decimal).normalize

end TypeBindings.Decimal
