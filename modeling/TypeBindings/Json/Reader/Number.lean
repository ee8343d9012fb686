import TypeBindings.Decimal.Shortest
import TypeBindings.Json.Reader.Basic

/-!
# Reading numbers

`Reader.numeral` reads the digits of a number by the grammar alone, `Numeral.value?` gives their value. A whole number
that fits in 64 bits stays whole. Any other number is rounded twice: its first digits, as many as fit in 64 bits, to a
binary64 number, and that number scaled by the power of ten that remains. The sign of zero is kept.
-/

namespace TypeBindings.Json

/-- The parts of a number as written. -/
structure Numeral where
  negative : Bool
  whole : List Char
  fraction : Option (List Char)
  exponent : Option (Bool × List Char)

namespace Numeral

def digitOf (c : Char) : Nat := c.toNat - 48

/-- The largest significand. -/
def maxSignificand : Nat := 0xFFFFFFFFFFFFFFFF

/-- Appends digits to a significand until the next one would not fit; gives also the digits that are left. -/
def extend : Nat → List Char → Nat × List Char
  | significand, [] => (significand, [])
  | significand, c :: rest =>
    let longer := significand * 10 + digitOf c
    if maxSignificand < longer then (significand, c :: rest) else extend longer rest

/-- The largest exponent that is read as a number. -/
def maxExponent : Nat := 0x7FFFFFFF

/-- The value of the digits of an exponent, or how many digits are left when it becomes too large. -/
def exponentOf : Nat → List Char → Except Nat Nat
  | value, [] => .ok value
  | value, c :: rest =>
    let longer := value * 10 + digitOf c
    if maxExponent < longer then .error rest.length else exponentOf longer rest

/-- A binary64 number divided by a power of ten, in steps of at most `10 ^ 308`. -/
def scaleDown (x : Float) : (steps : Nat) → Nat → Float
  | 0, _ => 0
  | steps + 1, e =>
    if e ≤ 308 then x / Float.ofScientific 1 false e
    else if x == 0 then x
    else scaleDown (x / Float.ofScientific 1 false 308) steps (e - 308)

/-- A significand scaled by a power of ten; nothing if the result is not finite. -/
def scale? (significand : Nat) (exponent : Int) : Option Float :=
  let x := significand.toUInt64.toFloat
  if exponent < 0 then some (scaleDown x 4 exponent.natAbs)
  else if exponent ≤ 308 then
    let y := x * Float.ofScientific 1 false exponent.toNat
    if y.isInf then none else some y
  else if significand = 0 then some 0
  else none

def float (negative : Bool) (x : Float) : Number :=
  .decimal (Decimal.ofFloat (if negative then -x else x))

/-- A significand scaled by a power of ten and then by a written exponent, or how many of the last digits stand after
the one that puts the number out of range. -/
def scaled (significand : Nat) (places : Int) : Option (Bool × List Char) → Except Nat Float
  | none => (scale? significand places).elim (.error 0) .ok
  | some (negativeExponent, digits) =>
    match exponentOf 0 digits with
    | .ok e => (scale? significand (if negativeExponent then places - e else places + e)).elim (.error 0) .ok
    | .error left => if significand ≠ 0 ∧ !negativeExponent then .error left else .ok 0

/-- The value of a numeral, or how many of its last digits stand after the one that puts it out of range. -/
def value (n : Numeral) : Except Nat Number :=
  let (significand, dropped) := extend 0 n.whole
  if n.fraction.isNone && n.exponent.isNone && dropped.isEmpty then
    if !n.negative then .ok (.int significand)
    else if 0 < significand ∧ significand ≤ 0x8000000000000000 then .ok (.int (-significand))
    else .ok (float true significand.toUInt64.toFloat)
  else
    let decimals := n.fraction.getD []
    let (significand, ignored) := extend significand decimals
    let places : Int := (dropped.length : Int) - ((decimals.length : Int) - ignored.length)
    (scaled significand places n.exponent).map (float n.negative)

end Numeral

namespace Reader

/-- Fails because a digit is missing: at the end of the text with `atEnd`, and otherwise at the next character. -/
def missingDigit {α : Type} (atEnd : GrammarError) : Reader α := do
  match ← peek with
  | none => failHere (.grammar atEnd)
  | some _ => failNext .invalidNumber

/-- At least one digit. -/
def someDigits (atEnd : GrammarError) : Reader (List Char) := do
  match ← takeWhile Char.isDigit with
  | [] => missingDigit atEnd
  | digits => return digits

/-- The digits before the point: one zero, or digits that do not start with zero. -/
def wholeDigits (atEnd : GrammarError) : Reader (List Char) := do
  match ← peek with
  | some '0' =>
    skip
    match ← peek with
    | some c => if c.isDigit then failNext .invalidNumber else return ['0']
    | none => return ['0']
  | _ => someDigits atEnd

/-- The parts of a number; `atEnd` is the error when the text ends where a digit is needed. -/
def numeral (atEnd : GrammarError) : Reader Numeral := do
  let negative := (← peek) == some '-'
  if negative then skip
  let whole ← wholeDigits atEnd
  let fraction ← do
    if (← peek) == some '.' then
      skip
      some <$> someDigits atEnd
    else pure none
  let exponent ← do
    let mark ← peek
    if mark == some 'e' || mark == some 'E' then
      skip
      let sign ← peek
      if sign == some '+' || sign == some '-' then skip
      let digits ← someDigits atEnd
      pure (some (sign == some '-', digits))
    else pure none
  return ⟨negative, whole, fraction, exponent⟩

def number : Reader Number := do
  let n ← numeral .endInValue
  match n.value with
  | .ok value => return value
  | .error left =>
    let place := (← get).position
    failAt ⟨place.line, place.column - left⟩ (.grammar .numberOutOfRange)

end Reader

end TypeBindings.Json
