import Blockwright.Text.Blank
import Blockwright.Text.Caseless

/-!
# Operands

The free-form parts of a line: a value that may stand in quotes, a list of values separated by
commas, and a condition that ends with a closing word such as `then`.
-/

namespace Blockwright.Script

open Blockwright.Text

/-- The characters that may enclose a value. -/
def isQuote (c : Char) : Bool := c == '"' || c == '\''

/-- A text without the pair of equal quotes around it, if it has one. -/
def dropQuotes : List Char → List Char
  | [] => []
  | c :: cs => if isQuote c && cs.getLast? == some c then cs.dropLast else c :: cs

/-- A value as written: trimmed, and without one pair of equal quotes around it.
Blanks inside the quotes are kept. -/
def unquote (text : List Char) : List Char := dropQuotes (trim text)

/-- The values of a comma-separated list; a value that is empty without its quotes is dropped. -/
def arguments (text : List Char) : List (List Char) :=
  ((text.splitOn ',').map unquote).filter (fun piece ↦ !piece.isEmpty)

/-- Whether a text ends with a blank. -/
def endsBlank (text : List Char) : Bool := (text.getLast?.map isBlank).getD false

/-- The trimmed text before a closing word. The word may be written in any mix of cases, at
least one blank stands before it, and what is left of the text is not empty. -/
def beforeWord (word text : List Char) : Option (List Char) :=
  let cut := text.length - word.length
  let head := text.take cut
  if sameLetters (text.drop cut) word && endsBlank head && !(trim head).isEmpty then
    some (trim head)
  else none

end Blockwright.Script
