import Blockwright.Decimal.Shortest

/-!
# Numbers in documents

A numeral is a number as written. Its value is an integer when it is written as one and fits 64
bits, with or without a sign; every other numeral is a double.
-/

namespace Blockwright.Json

open Blockwright.Decimal

/-- A number as written in a document. -/
structure Numeral where
  /-- Whether a minus sign stands in front. -/
  negative : Bool
  /-- The digits before the point. -/
  whole : List Char
  /-- The digits after the point, none if there is no point. -/
  fraction : List Char
  /-- Whether the exponent is negative, and its digits, if there is an exponent. -/
  exponent : Option (Bool × List Char)
  deriving DecidableEq, Repr

/-- The value of a number. -/
inductive Number where
  /-- An integer of at most 64 bits. -/
  | integer (value : Int)
  /-- A double, given by its sign and its magnitude. -/
  | real (negative : Bool) (magnitude : Binary64)
  deriving DecidableEq, Repr

/-- The value of a decimal digit. -/
def digitValue (c : Char) : Nat := c.toNat - '0'.toNat

/-- Appends digits to a number as long as it stays below `2 ^ 64`, and gives the digits left. -/
def absorb (n : Nat) : List Char → Nat × List Char
  | [] => (n, [])
  | c :: cs =>
    if 10 * n + digitValue c < Nat.pow 2 64 then absorb (10 * n + digitValue c) cs else (n, c :: cs)

/-- The value of an exponent's digits, or nothing when it leaves 32 bits. -/
def exponentValue (n : Nat) : List Char → Option Nat
  | [] => some n
  | c :: cs =>
    if 10 * n + digitValue c < Nat.pow 2 31 then exponentValue (10 * n + digitValue c) cs else none

namespace Numeral

/-- The leading digits, as many as fit 64 bits, and the power of ten that they stand at. -/
def scientific (n : Numeral) : Nat × Int :=
  let (whole, dropped) := absorb 0 n.whole
  let (significand, ignored) := absorb whole n.fraction
  (significand, dropped.length - (n.fraction.length - ignored.length : Nat))

/-- The magnitude of a numeral as a double, or nothing when it is too large. -/
def magnitude (n : Numeral) : Option Binary64 :=
  let (significand, power) := n.scientific
  match n.exponent with
  | none => Binary64.ofScientific significand power
  | some (below, digits) =>
    match exponentValue 0 digits with
    | some e => Binary64.ofScientific significand (if below then power - e else power + e)
    | none => if significand = 0 ∨ below then some Binary64.zero else none

/-- The value of a numeral, or nothing when it is too large for a double. -/
def value (n : Numeral) : Option Number :=
  let real := n.magnitude.map (Number.real n.negative)
  if n.fraction.isEmpty && n.exponent.isNone then
    match absorb 0 n.whole with
    | (size, []) =>
      if n.negative then
        if size = 0 ∨ Nat.pow 2 63 < size then real else some (.integer (-size))
      else some (.integer size)
    | _ => real
  else real

end Numeral

/-- A double's text is its shortest decimal. -/
def Number.text : Number → String
  | .integer value => toString value
  | .real negative magnitude => if negative then "-" ++ magnitude.text else magnitude.text

end Blockwright.Json
