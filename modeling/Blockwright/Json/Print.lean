import Blockwright.Json.Value

/-!
# Written values

Values are written either compactly, without any blank between tokens, or laid out with one item
or member a line and two spaces for each open bracket. Members are written in the order they have
in the value.
-/

namespace Blockwright.Json

/-- How one character is written inside a text. -/
def escapeChar (c : Char) : List Char :=
  if c = '"' then ['\\', '"']
  else if c = '\\' then ['\\', '\\']
  else if c.toNat = 0x8 then ['\\', 'b']
  else if c.toNat = 0xC then ['\\', 'f']
  else if c = '\n' then ['\\', 'n']
  else if c = '\r' then ['\\', 'r']
  else if c = '\t' then ['\\', 't']
  else if c.toNat < 0x20 then
    ['\\', 'u', '0', '0', Nat.digitChar (c.toNat / 16), Nat.digitChar (c.toNat % 16)]
  else [c]

/-- A text as it is written. -/
def writtenText (s : String) : List Char := '"' :: s.toList.flatMap escapeChar ++ ['"']

/-- A line break followed by the blanks inside `level` open brackets. -/
def lineBreak (level : Nat) : List Char := '\n' :: List.replicate (2 * level) ' '

namespace Value

/-- A value that is neither list nor object as it is written. -/
def scalar : Value → List Char
  | null => ['n', 'u', 'l', 'l']
  | bool true => ['t', 'r', 'u', 'e']
  | bool false => ['f', 'a', 'l', 's', 'e']
  | number n => n.text.toList
  | text content => writtenText content
  | list _ | object _ => []

mutual

/-- A value written without blanks, followed by `rest`. -/
def compact (rest : List Char) : Value → List Char
  | list items => '[' :: compactItems (']' :: rest) items
  | object members => '\x7b' :: compactMembers ('\x7d' :: rest) members
  | value => scalar value ++ rest

/-- Items written without blanks and separated by commas, followed by `rest`. -/
def compactItems (rest : List Char) : List Value → List Char
  | [] => rest
  | value :: items =>
    compact (if items.isEmpty then rest else ',' :: compactItems rest items) value

/-- Members written without blanks and separated by commas, followed by `rest`. -/
def compactMembers (rest : List Char) : List (String × Value) → List Char
  | [] => rest
  | (key, value) :: members =>
    writtenText key ++ ':' ::
      compact (if members.isEmpty then rest else ',' :: compactMembers rest members) value

end

mutual

/-- A value laid out inside `level` open brackets, followed by `rest`. -/
def pretty (level : Nat) (rest : List Char) : Value → List Char
  | list items =>
    if items.isEmpty then '[' :: ']' :: rest
    else '[' :: prettyItems (level + 1) (lineBreak level ++ ']' :: rest) items
  | object members =>
    if members.isEmpty then '\x7b' :: '\x7d' :: rest
    else '\x7b' :: prettyMembers (level + 1) (lineBreak level ++ '\x7d' :: rest) members
  | value => scalar value ++ rest

/-- Items laid out one a line, followed by `rest`. -/
def prettyItems (level : Nat) (rest : List Char) : List Value → List Char
  | [] => rest
  | value :: items =>
    lineBreak level ++
      pretty level (if items.isEmpty then rest else ',' :: prettyItems level rest items) value

/-- Members laid out one a line, followed by `rest`. -/
def prettyMembers (level : Nat) (rest : List Char) : List (String × Value) → List Char
  | [] => rest
  | (key, value) :: members =>
    lineBreak level ++ writtenText key ++ ':' :: ' ' ::
      pretty level (if members.isEmpty then rest else ',' :: prettyMembers level rest members)
        value

end

end Value

end Blockwright.Json
