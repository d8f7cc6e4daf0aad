/-!
# Double-precision magnitudes

A magnitude is `mantissa * 2 ^ scale` in units of `2 ^ -1074`, the least positive one.
The arithmetic is exact on natural numbers and rounds once at the end, to the nearest magnitude
and between two equally near ones to the even mantissa.
-/

namespace Blockwright.Decimal

/-- A finite double-precision number without its sign. -/
structure Binary64 where
  /-- The significant bits, at most 53 of them. -/
  mantissa : Nat
  /-- The power of two above the least positive magnitude. -/
  scale : Nat
  deriving DecidableEq, Repr

namespace Binary64

/-- The number of units in one. -/
def unitsPerOne : Nat := Nat.pow 2 1074

/-- The largest scale of a finite magnitude. -/
def maxScale : Nat := 2045

/-- The magnitude zero. -/
def zero : Binary64 := ⟨0, 0⟩

/-- The quotient of two numbers, rounded to the nearest, ties to even. -/
def divideToEven (a b : Nat) : Nat :=
  let q := a / b
  let r := a % b
  if 2 * r < b then q else if b < 2 * r then q + 1 else q + q % 2

/-- The magnitude nearest to a quotient, or nothing when it is too large. -/
def ofRatio (a b : Nat) : Option Binary64 :=
  let units := a * unitsPerOne
  let scale := Nat.log2 (units / b) - 52
  let mantissa := divideToEven units (b * Nat.pow 2 scale)
  let rounded : Binary64 :=
    if mantissa < Nat.pow 2 53 then ⟨mantissa, scale⟩ else ⟨mantissa / 2, scale + 1⟩
  if rounded.scale ≤ maxScale then some rounded else none

/-- The magnitude nearest to a natural number. -/
def ofNat (n : Nat) : Option Binary64 := ofRatio n 1

/-- The number of units in a magnitude. -/
def units (x : Binary64) : Nat := x.mantissa * Nat.pow 2 x.scale

/-- The rounded product. -/
def mul (x y : Binary64) : Option Binary64 :=
  ofRatio (x.units * y.units) (unitsPerOne * unitsPerOne)

/-- The rounded quotient. -/
def div (x y : Binary64) : Option Binary64 := ofRatio x.units y.units

/-- The largest power of ten that is scaled by in one step. -/
def maxPower : Nat := 308

/-- The magnitude nearest to a power of ten. -/
def tenTo (power : Nat) : Option Binary64 := ofNat (Nat.pow 10 power)

/-- A magnitude divided by the same divisor several times and rounded each time. -/
def divRepeatedly (divisor : Binary64) : Nat → Binary64 → Option Binary64
  | 0, x => some x
  | times + 1, x =>
    if x.mantissa = 0 then some x else (x.div divisor).bind (divRepeatedly divisor times)

/-- A magnitude divided by a power of ten, at most `10 ^ 308` at a time and rounded each time. -/
def shrink (x : Binary64) (power : Nat) : Option Binary64 := do
  let times := (power - 1) / maxPower
  let reduced ← divRepeatedly (← tenTo maxPower) times x
  reduced.div (← tenTo (power - times * maxPower))

/-- A natural number, rounded, scaled by a power of ten and rounded again.
There is no result when it is too large. -/
def ofScientific (significand : Nat) (exponent : Int) : Option Binary64 :=
  match ofNat significand with
  | none => none
  | some x =>
    if exponent < 0 then x.shrink exponent.natAbs
    else if exponent.natAbs ≤ maxPower then (tenTo exponent.natAbs).bind x.mul
    else if x.mantissa = 0 then some x
    else none

end Binary64

end Blockwright.Decimal
