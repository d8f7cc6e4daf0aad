import Blockwright.Config
import Blockwright.Text.Caseless

/-!
# Literals

What a value stands for is seen from its text alone; nothing is evaluated, so `counter + 1` is
a text. A colour's name comes before every other reading.
-/

namespace Blockwright

/-- What a value stands for. -/
inductive Literal where
  /-- A colour, with the type of the block that shows it. -/
  | color (block argb : String)
  | number (digits : String)
  | boolean (value : Bool)
  | text (content : String)
  deriving DecidableEq, Repr

namespace Literal

/-- Whether a character is a hexadecimal digit. -/
def isHexDigit (c : Char) : Bool :=
  c.isDigit || ('a' ≤ c && c ≤ 'f') || ('A' ≤ c && c ≤ 'F')

/-- The colour without transparency that a `#` and six hexadecimal digits stand for. -/
def hexColor? (value : String) : Option String :=
  match value.toList with
  | '#' :: digits =>
    if digits.length = 6 ∧ digits.all isHexDigit then
      some ("&HFF" ++ String.ofList (digits.map Text.upperAscii))
    else none
  | _ => none

/-- The type of the block that shows a colour without a name. -/
def hexColorBlock : String := "color_black"

/-- What a text stands for when it is no colour's name. -/
def ofUnnamed (value : String) : Literal :=
  if value.toList ≠ [] ∧ value.toList.all Char.isDigit then .number value
  else if Text.sameLetters value.toList "true".toList then .boolean true
  else if Text.sameLetters value.toList "false".toList then .boolean false
  else match hexColor? value with
    | some argb => .color hexColorBlock argb
    | none => .text value

/-- What a text stands for. -/
def ofText (config : Config) (value : String) : Literal :=
  match config.color? value with
  | some named => .color named.block named.argb
  | none => ofUnnamed value

end Literal

end Blockwright
