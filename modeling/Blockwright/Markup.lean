/-!
# Markup

Trees of elements and their written form. An element holds either elements or a text. Elements
inside an element stand on lines of their own, two spaces further in; a text stands as it is
between its element's tags, so nothing is added to it.
-/

namespace Blockwright

/-- An element of markup. -/
inductive Element where
  /-- An element that holds elements. -/
  | node (tag : String) (attributes : List (String × String)) (children : List Element)
  /-- An element that holds a text. -/
  | leaf (tag : String) (attributes : List (String × String)) (content : String)
  deriving Repr

namespace Markup

/-- How a character is written inside a text. -/
def escapeInText (c : Char) : List Char :=
  if c = '<' then "&lt;".toList
  else if c = '>' then "&gt;".toList
  else if c = '&' then "&amp;".toList
  else [c]

/-- How a character is written inside the value of an attribute. -/
def escapeInValue (c : Char) : List Char :=
  if c = '"' then "&quot;".toList
  else if c = '\x27' then "&apos;".toList
  else if c = '\n' then "&#xA;".toList
  else if c = '\r' then "&#xD;".toList
  else escapeInText c

/-- An attribute with the blank before it. -/
def writtenAttribute (entry : String × String) : List Char :=
  ' ' :: entry.1.toList ++ '=' :: '"' :: entry.2.toList.flatMap escapeInValue ++ ['"']

/-- What an opening tag holds. -/
def tagContent (tag : String) (attributes : List (String × String)) : List Char :=
  tag.toList ++ attributes.flatMap writtenAttribute

/-- A closing tag. -/
def closingTag (tag : String) : List Char := '<' :: '/' :: tag.toList ++ ['>']

/-- The start of a line inside `level` elements. -/
def lineStart (level : Nat) : List Char := '\n' :: List.replicate (2 * level) ' '

end Markup

namespace Element

open Markup

mutual

/-- An element written inside `level` elements, followed by `rest`. -/
def render (level : Nat) (rest : List Char) : Element → List Char
  | node tag attributes children =>
    '<' :: tagContent tag attributes ++
      if children.isEmpty then ' ' :: '/' :: '>' :: rest
      else '>' :: renderLines (level + 1) (lineStart level ++ closingTag tag ++ rest) children
  | leaf tag attributes content =>
    '<' :: tagContent tag attributes ++ '>' :: content.toList.flatMap escapeInText ++
      (closingTag tag ++ rest)

/-- Elements written each on a line of its own, followed by `rest`. -/
def renderLines (level : Nat) (rest : List Char) : List Element → List Char
  | [] => rest
  | element :: elements =>
    lineStart level ++ render level (renderLines level rest elements) element

end

/-- The written form of a tree. -/
def written (element : Element) : String := String.ofList (element.render 0 [])

end Element

end Blockwright
