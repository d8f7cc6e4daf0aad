import Blockwright.Json.Token

/-!
# Document trees

A document read as far as it is well formed. Where the text breaks off or goes wrong, the tree
ends with the fault, and every bracket still open there ends with it too. Readers of a tree meet
its parts in the order of the text, so they also meet the fault in that order.

The tree is built from the tokens one by one, with the open brackets kept in a list, so nesting
has no limit here.
-/

namespace Blockwright.Json

/-- A document, or a part of one, as written. -/
inductive Tree where
  /-- The word `null`. -/
  | null
  /-- The word `true` or `false`. -/
  | bool (value : Bool)
  /-- A number as written. -/
  | number (numeral : Numeral)
  /-- A text, without content if an escape in it has none. -/
  | text (content : Option String)
  /-- A list, with the fault that ends it if it is not closed. -/
  | list (items : List Tree) (ending : Option Breach)
  /-- An object with its members in written order, with the fault that ends it if it is not
  closed. -/
  | object (members : List (Option String × Tree)) (ending : Option Breach)
  /-- No value could be read here. -/
  | broken (breach : Breach)
  deriving Repr

/-- A whole document. -/
structure Document where
  /-- The value of the document. -/
  root : Tree
  /-- Whether anything but blanks follows the value. -/
  trailing : Bool

/-- An open bracket with what stands between it and the value being read, last part first. -/
inductive Opened where
  /-- An open list. -/
  | list (items : List Tree)
  /-- An open object, and the key whose value is being read. -/
  | object (members : List (Option String × Tree)) (key : Option String)

namespace Opened

/-- The tree of an open bracket that a fault ends, after the value being read. -/
def endWith (breach : Breach) (value : Tree) : Opened → Tree
  | list items => .list (value :: items).reverse (some breach)
  | object members key => .object ((key, value) :: members).reverse (some breach)

end Opened

/-- The document that a fault ends: every open bracket ends with it. -/
def abandon (breach : Breach) (value : Tree) (opened : List Opened) : Document :=
  { root := opened.foldl (fun tree bracket ↦ bracket.endWith breach tree) value
    trailing := false }

/-- What may come next while a document is read. -/
inductive Builder where
  /-- A value. -/
  | value (opened : List Opened)
  /-- The first item of a list, or its closing bracket. -/
  | firstItem (opened : List Opened)
  /-- The first key of an object, or its closing bracket. -/
  | firstKey (opened : List Opened)
  /-- A further key of an object. -/
  | nextKey (members : List (Option String × Tree)) (opened : List Opened)
  /-- The colon between a key and its value. -/
  | colon (members : List (Option String × Tree)) (key : Option String) (opened : List Opened)
  /-- Whatever may follow a value. -/
  | after (tree : Tree) (opened : List Opened)
  /-- Nothing: the document is over. -/
  | over (document : Document)

namespace Builder

/-- A builder before the first token of a document. -/
def start : Builder := .value []

/-- Gives a token where a value has to stand. -/
def feedValue (opened : List Opened) : Token → Builder
  | .null => .after .null opened
  | .bool b => .after (.bool b) opened
  | .number n => .after (.number n) opened
  | .text content => .after (.text content) opened
  | .openList => .firstItem opened
  | .openObject => .firstKey opened
  | .brokenText breach => .over (abandon breach (.broken breach) opened)
  | .broken breach => .over (abandon breach (.broken breach) opened)
  | .closeList | .closeObject | .comma | .colon =>
    .over (abandon .misplaced (.broken .misplaced) opened)

/-- Gives a token where a key has to stand. -/
def feedKey (members : List (Option String × Tree)) (opened : List Opened) : Token → Builder
  | .text key => .colon members key opened
  | .brokenText breach => .over (abandon breach (.object members.reverse (some breach)) opened)
  | _ => .over (abandon .misplaced (.object members.reverse (some .misplaced)) opened)

/-- Gives a token that follows a value. -/
def feedAfter (tree : Tree) : List Opened → Token → Builder
  | [], _ => .over { root := tree, trailing := true }
  | .list items :: opened, .comma => .value (.list (tree :: items) :: opened)
  | .list items :: opened, .closeList => .after (.list (tree :: items).reverse none) opened
  | .object members key :: opened, .comma => .nextKey ((key, tree) :: members) opened
  | .object members key :: opened, .closeObject =>
    .after (.object ((key, tree) :: members).reverse none) opened
  | opened, _ => .over (abandon .misplaced tree opened)

/-- Gives the next token. -/
def feed : Builder → Token → Builder
  | .value opened, token => feedValue opened token
  | .firstItem opened, .closeList => .after (.list [] none) opened
  | .firstItem opened, token => feedValue (.list [] :: opened) token
  | .firstKey opened, .closeObject => .after (.object [] none) opened
  | .firstKey opened, token => feedKey [] opened token
  | .nextKey members opened, token => feedKey members opened token
  | .colon members key opened, .colon => .value (.object members key :: opened)
  | .colon members key opened, _ =>
    .over (abandon .misplaced (.broken .misplaced) (.object members key :: opened))
  | .after tree opened, token => feedAfter tree opened token
  | .over document, _ => .over document

/-- The document when the text ends. -/
def finish : Builder → Document
  | .value opened => abandon .cut (.broken .cut) opened
  | .firstItem opened => abandon .cut (.list [] (some .cut)) opened
  | .firstKey opened => abandon .cut (.object [] (some .cut)) opened
  | .nextKey members opened => abandon .cut (.object members.reverse (some .cut)) opened
  | .colon members key opened => abandon .cut (.broken .cut) (.object members key :: opened)
  | .after tree [] => { root := tree, trailing := false }
  | .after tree opened => abandon .cut tree opened
  | .over document => document

end Builder

/-- The document that a text holds. -/
def Document.read (text : List Char) : Document :=
  ((tokens text).foldl Builder.feed Builder.start).finish

end Blockwright.Json
