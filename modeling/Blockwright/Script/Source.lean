import Blockwright.Text.Blank

/-!
# Source lines

A script is cut into lines, and only the lines that say something are kept.
A line ends at a line feed, and one carriage return before the line feed belongs to the ending.
Blank lines and lines that start with `//` are dropped; every kept line carries its number,
counted from one over all lines, and the width of the blanks it starts with.
-/

namespace Blockwright.Script

open Blockwright.Text

/-- The text up to the first line feed, and what follows the line feed if there is one. -/
def cutLine : List Char → List Char × Option (List Char)
  | [] => ([], none)
  | '\n' :: cs => ([], some cs)
  | c :: cs => (c :: (cutLine cs).1, (cutLine cs).2)

/-- A text without the carriage return it may end with. -/
def dropReturn (line : List Char) : List Char :=
  if line.getLast? = some '\r' then line.dropLast else line

/-- What stands behind the first line feed is shorter than the text. -/
theorem length_lt_of_cutLine {cs rest : List Char} (h : (cutLine cs).2 = some rest) :
    rest.length < cs.length := by
  induction cs with
  | nil => simp [cutLine] at h
  | cons c cs ih =>
    rw [cutLine.eq_def] at h
    split at h
    · simp at h
    · next heq =>
      simp only [List.cons.injEq] at heq
      simp_all
    · next heq =>
      simp only [List.cons.injEq] at heq
      obtain ⟨rfl, rfl⟩ := heq
      have := ih h
      simp only [List.length_cons]
      omega

/-- The lines of a text. A text that ends with a line feed has no empty line after it. -/
def rawLines (cs : List Char) : List (List Char) :=
  match _h : (cutLine cs).2 with
  | some rest => dropReturn (cutLine cs).1 :: rawLines rest
  | none => if cs.isEmpty then [] else [cs]
termination_by cs.length
decreasing_by exact length_lt_of_cutLine _h

/-- The distance between two tab stops. -/
def tabWidth : Nat := 4

/-- The column reached after the blanks at the start of a line, when counting from `column`.
A tab goes to the next tab stop and every other blank takes one column. -/
def indentFrom (column : Nat) : List Char → Nat
  | [] => column
  | c :: cs =>
    if c = '\t' then indentFrom (column + (tabWidth - column % tabWidth)) cs
    else if isBlank c then indentFrom (column + 1) cs
    else column

/-- The width of the blanks that a line starts with. -/
def indentWidth (line : List Char) : Nat := indentFrom 0 line

/-- One line of a script that is neither blank nor a comment. -/
structure SourceLine where
  /-- The line's number, counted from one. -/
  number : Nat
  /-- The width of the blanks before the text. -/
  indent : Nat
  /-- The line's text without the blanks at either end. -/
  text : String
  deriving DecidableEq, Repr

/-- Whether a trimmed line says nothing: it is empty or a `//` comment. -/
def isSilent : List Char → Bool
  | [] => true
  | '/' :: '/' :: _ => true
  | _ => false

/-- The source line that a raw line with a number makes, if it says something. -/
def SourceLine.ofRaw (number : Nat) (raw : List Char) : Option SourceLine :=
  let text := trim raw
  if isSilent text then none
  else some { number, indent := indentWidth raw, text := String.ofList text }

/-- The source lines among raw lines whose first has the given number. -/
def sourceLinesFrom : Nat → List (List Char) → List SourceLine
  | _, [] => []
  | number, raw :: raws =>
    (SourceLine.ofRaw number raw).toList ++ sourceLinesFrom (number + 1) raws

/-- The lines of a script that say something, in order. -/
def sourceLines (script : String) : List SourceLine :=
  sourceLinesFrom 1 (rawLines script.toList)

end Blockwright.Script
