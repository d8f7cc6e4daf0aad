import Blockwright.Text.Blank
import Blockwright.Text.Caseless

/-!
# Reading along a line

A reader takes the characters ahead and gives what it read together with the characters that
remain; a reader that does not apply gives nothing, so it consumes nothing.
A `Cursor` remembers what was passed, which gives every reader a byte position.
-/

namespace Blockwright.Script

open Blockwright.Text

/-- The characters of names: ASCII letters, ASCII digits and the underscore. -/
def isNameChar (c : Char) : Bool :=
  ('a' ≤ c && c ≤ 'z') || ('A' ≤ c && c ≤ 'Z') || ('0' ≤ c && c ≤ '9') || c == '_'

/-- Reads one or more blanks. -/
def blanks (ahead : List Char) : Option (List Char) :=
  match ahead with
  | [] => none
  | c :: cs => if isBlank c then some (trimStart cs) else none

/-- Reads a name, as long as it goes. -/
def name (ahead : List Char) : Option (List Char × List Char) :=
  match ahead.takeWhile isNameChar with
  | [] => none
  | c :: cs => some (c :: cs, ahead.dropWhile isNameChar)

/-- Whether the characters ahead start inside a name. -/
def continuesName : List Char → Bool
  | [] => false
  | c :: _ => isNameChar c

/-- Reads a word in any mix of cases, as a whole word: no name character may follow it. -/
def keyword (word : List Char) (ahead : List Char) : Option (List Char) :=
  match dropWord? word ahead with
  | none => none
  | some rest => if continuesName rest then none else some rest

/-- Reads a word and the blanks that have to follow it. -/
def keywordBlanks (word : List Char) (ahead : List Char) : Option (List Char) :=
  (keyword word ahead).bind blanks

/-- Reads the given character. -/
def symbol (c : Char) : List Char → Option (List Char)
  | [] => none
  | d :: cs => if d = c then some cs else none

/-- A position inside one line: the characters passed, in order, and the characters ahead. -/
structure Cursor where
  /-- The characters already read. -/
  passed : List Char
  /-- The characters still to read. -/
  ahead : List Char
  deriving DecidableEq, Repr

/-- One question asked at a cursor. -/
inductive Step where
  /-- Are there blanks? -/
  | blanks
  /-- Is there a name? -/
  | name
  /-- Is the line used up? -/
  | atEnd
  /-- Is there this whole word? -/
  | keyword (word : String)
  /-- Is there this whole word with blanks behind it? -/
  | keywordBlanks (word : String)
  /-- Is there this character? -/
  | symbol (c : Char)
  deriving DecidableEq, Repr

/-- The answer to a step. -/
inductive Answer where
  /-- Yes or no. -/
  | holds (yes : Bool)
  /-- The name that was read, if there was one. -/
  | named (name : Option String)
  deriving DecidableEq, Repr

namespace Cursor

/-- The cursor before the first character of a line. -/
def start (line : String) : Cursor := { passed := [], ahead := line.toList }

/-- The number of UTF-8 bytes already read. -/
def position (c : Cursor) : Nat := (String.ofList c.passed).utf8ByteSize

/-- The text still to read. -/
def rest (c : Cursor) : String := String.ofList c.ahead

/-- The cursor moved forward so that only `remaining` is ahead of it. -/
def advanceTo (c : Cursor) (remaining : List Char) : Cursor :=
  { passed := c.passed ++ c.ahead.take (c.ahead.length - remaining.length)
    ahead := remaining }

/-- The outcome of a reader that yields no value: it moves the cursor or leaves it alone. -/
def test (c : Cursor) (result : Option (List Char)) : Answer × Cursor :=
  match result with
  | some remaining => (.holds true, c.advanceTo remaining)
  | none => (.holds false, c)

/-- Asks one question. A step that does not apply leaves the cursor where it is. -/
def step (c : Cursor) : Step → Answer × Cursor
  | .blanks => c.test (Script.blanks c.ahead)
  | .name =>
    match Script.name c.ahead with
    | some (read, remaining) => (.named (some (String.ofList read)), c.advanceTo remaining)
    | none => (.named none, c)
  | .atEnd => (.holds c.ahead.isEmpty, c)
  | .keyword word => c.test (Script.keyword word.toList c.ahead)
  | .keywordBlanks word => c.test (Script.keywordBlanks word.toList c.ahead)
  | .symbol x => c.test (Script.symbol x c.ahead)

/-- Asks a list of questions in turn and collects each answer with the text left after it. -/
def run (c : Cursor) : List Step → List (Answer × String)
  | [] => []
  | s :: steps => ((c.step s).1, (c.step s).2.rest) :: run (c.step s).2 steps

end Cursor

end Blockwright.Script
