import Blockwright.Decimal.Binary64

/-!
# The shortest decimal of a double

Of all decimals that read back as a given double, the one with the fewest digits, and of those
the one nearest to it, with ties to the even digit. The search tests, digit count by digit count,
the two neighbours of the magnitude on the decimal grid, in exact arithmetic.
-/

namespace Blockwright.Decimal

/-- The decimal `digits * 10 ^ exponent`. -/
structure Scientific where
  digits : Nat
  exponent : Int
  deriving DecidableEq, Repr

namespace Binary64

/-- Twice the distance from a magnitude to the border above it, in quarter units. -/
def gapAbove (x : Binary64) : Nat := 2 * Nat.pow 2 x.scale

/-- The distance to the border below, which is half as wide at a power of two. -/
def gapBelow (x : Binary64) : Nat :=
  if x.mantissa = Nat.pow 2 52 ∧ 0 < x.scale then Nat.pow 2 x.scale
  else 2 * Nat.pow 2 x.scale

/-- A quantity of quarter units and a decimal, brought to one common denominator. -/
def align (quarters : Nat) (d : Scientific) : Nat × Nat :=
  if d.exponent < 0 then
    (quarters * Nat.pow 10 d.exponent.natAbs, d.digits * (4 * unitsPerOne))
  else (quarters, d.digits * Nat.pow 10 d.exponent.natAbs * (4 * unitsPerOne))

/-- Whether a decimal reads back as the magnitude. The borders themselves do so exactly when
the mantissa is even. -/
def readsBack (x : Binary64) (d : Scientific) : Bool :=
  let value := 4 * x.units
  let (low, point) := align (value - x.gapBelow) d
  let (high, _) := align (value + x.gapAbove) d
  if x.mantissa % 2 = 0 then low ≤ point && point ≤ high else low < point && point < high

/-- The distance between a magnitude and a decimal, on the decimal's common denominator. -/
def distance (x : Binary64) (d : Scientific) : Nat :=
  let (value, point) := align (4 * x.units) d
  (value - point) + (point - value)

/-- The power of ten of a magnitude's first digit. -/
def firstDigit (x : Binary64) : Int :=
  if unitsPerOne ≤ x.units then (Nat.toDigits 10 (x.units / unitsPerOne)).length - 1
  else
    match (List.range 324).find? (fun k ↦ unitsPerOne ≤ x.units * Nat.pow 10 (k + 1)) with
    | some k => -((k : Int) + 1)
    | none => -324

/-- The decimal with this many digits that is nearest to a magnitude and reads back as it; of two
equally near ones, the one with the even last digit. -/
def withDigits (x : Binary64) (count : Nat) : Option Scientific :=
  let exponent := x.firstDigit + 1 - count
  let digits :=
    if exponent < 0 then x.units * Nat.pow 10 exponent.natAbs / unitsPerOne
    else x.units / (unitsPerOne * Nat.pow 10 exponent.natAbs)
  let below : Scientific := ⟨digits, exponent⟩
  let above : Scientific := ⟨digits + 1, exponent⟩
  match x.readsBack below, x.readsBack above with
  | true, true =>
    if x.distance below < x.distance above ∨
        x.distance below = x.distance above ∧ digits % 2 = 0 then some below
    else some above
  | true, false => some below
  | false, true => some above
  | false, false => none

/-- The shortest decimal that reads back as a magnitude. Seventeen digits always do. -/
def shortest (x : Binary64) : Scientific :=
  ((List.range 17).findSome? (fun k ↦ x.withDigits (k + 1))).getD ⟨0, 0⟩

end Binary64

/-- A decimal without trailing zeros among its digits. -/
def Scientific.strip (d : Scientific) : List Char × Int :=
  let written := Nat.toDigits 10 d.digits
  let kept := (written.reverse.dropWhile (· == '0')).reverse
  (kept, d.exponent + (written.length - kept.length : Nat))

/-- Magnitudes from `10 ^ -5` up to `10 ^ 16` are written positionally and always with a point;
all others with one digit before the point, an `e` and the exponent with its sign. -/
def Binary64.text (x : Binary64) : String :=
  if x.mantissa = 0 then "0.0"
  else
    let (digits, exponent) := x.shortest.strip
    let point : Int := digits.length + exponent
    if 16 < point ∨ point < -4 then
      let tail := if digits.length ≤ 1 then [] else '.' :: digits.drop 1
      let sign := if point < 1 then '-' else '+'
      String.ofList (digits.take 1 ++ tail ++ ['e', sign] ++
        Nat.toDigits 10 (point - 1).natAbs)
    else if 0 ≤ exponent then
      String.ofList (digits ++ List.replicate exponent.natAbs '0' ++ ['.', '0'])
    else if 0 < point then
      String.ofList (digits.take point.natAbs ++ '.' :: digits.drop point.natAbs)
    else
      String.ofList (['0', '.'] ++ List.replicate point.natAbs '0' ++ digits)

end Blockwright.Decimal
