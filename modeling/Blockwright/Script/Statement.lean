import Blockwright.Script.Cursor
import Blockwright.Script.Operand

/-!
# Statements

What one line of a script says, and the rules that recognise it.
Every rule reads a whole line on its own; a line is what the first accepting rule makes of it.
-/

namespace Blockwright.Script

open Blockwright.Text

/-- What a single line says. -/
inductive Statement where
  /-- Opens the handler of a component's event. -/
  | event (component event : String)
  /-- Declares a variable with its first value. -/
  | declare (name value : String)
  /-- Opens a procedure. -/
  | procedure (name : String) (parameters : List String)
  /-- Sets a property of a component. -/
  | setProperty (component property value : String)
  /-- Sets a variable. -/
  | assign (target value : String)
  /-- Calls a method of a component. -/
  | callMethod (component method : String) (arguments : List String)
  /-- Calls a procedure. -/
  | callProcedure (name : String) (arguments : List String)
  /-- Opens a further arm of a conditional. -/
  | elseIf (condition : String)
  /-- Opens the last arm of a conditional. -/
  | otherwise
  /-- Opens a conditional. -/
  | branch (condition : String)
  /-- Opens a loop over the items of a list. -/
  | forEach (item list : String)
  /-- Opens a loop that runs while its condition holds. -/
  | loop (condition : String)
  /-- Closes blocks and says nothing else. -/
  | closing
  deriving DecidableEq, Repr

/-- The line rules. -/
inductive Rule where
  | event | declare | procedure | setProperty | assign | callMethod | callProcedure
  | elseIf | otherwise | branch | forEach | loop | closing
  deriving DecidableEq, Repr

namespace Rule

/-- All rules, in the order in which they are tried. -/
def all : List Rule :=
  [event, declare, procedure, setProperty, assign, callMethod, callProcedure,
    elseIf, otherwise, branch, forEach, loop, closing]

/-- The name of a rule. -/
def label : Rule → String
  | event => "event-header"
  | declare => "variable-decl"
  | procedure => "procedure-header"
  | setProperty => "set-property"
  | assign => "assign"
  | callMethod => "component-call"
  | callProcedure => "procedure-call"
  | elseIf => "else-if"
  | otherwise => "else"
  | branch => "if"
  | forEach => "for-each"
  | loop => "while"
  | closing => "block-noise"

/-- Reads two names joined by a dot. -/
def dotted (ahead : List Char) : Option (List Char × List Char × List Char) := do
  let (owner, ahead) ← name ahead
  let ahead ← symbol '.' ahead
  let (member, ahead) ← name ahead
  return (owner, member, ahead)

/-- Succeeds at the end of the line only. -/
def atEnd (ahead : List Char) : Option Unit := if ahead.isEmpty then some () else none

/-- Reads blanks, a word, blanks and a rest of the line that is not empty. -/
def afterWord (word : String) (ahead : List Char) : Option (List Char) := do
  let ahead ← blanks ahead
  let ahead ← keywordBlanks word.toList ahead
  if ahead.isEmpty then none else some ahead

/-- Reads a list of values in parentheses that ends the line and has no inner closing one. -/
def parenthesised (ahead : List Char) : Option (List String) := do
  let inside ← symbol '(' ahead
  if inside.getLast? = some ')' ∧ ')' ∉ inside.dropLast then
    some ((arguments inside.dropLast).map String.ofList)
  else none

/-- `on` or `when`, a component and its event, and `do` if the line goes on. -/
def readEvent (line : List Char) : Option Statement := do
  let ahead ← keywordBlanks "on".toList line <|> keywordBlanks "when".toList line
  let (component, occurrence, ahead) ← dotted ahead
  let ahead ← match blanks ahead with
    | some ahead => keyword "do".toList ahead
    | none => some ahead
  atEnd ahead
  return .event (String.ofList component) (String.ofList occurrence)

/-- `define`, a name, `as` and a value. -/
def readDeclare (line : List Char) : Option Statement := do
  let ahead ← keywordBlanks "define".toList line
  let (declared, ahead) ← name ahead
  let value ← afterWord "as" ahead
  return .declare (String.ofList declared) (String.ofList (unquote value))

/-- `define`, a name, and parameters in parentheses if the line goes on. -/
def readProcedure (line : List Char) : Option Statement := do
  let ahead ← keywordBlanks "define".toList line
  let (title, ahead) ← name ahead
  let parameters ← if ahead.isEmpty then some [] else parenthesised ahead
  return .procedure (String.ofList title) parameters

/-- `set`, a component and its property, `to` and a value. -/
def readSetProperty (line : List Char) : Option Statement := do
  let ahead ← keywordBlanks "set".toList line
  let (component, property, ahead) ← dotted ahead
  let value ← afterWord "to" ahead
  return .setProperty (String.ofList component) (String.ofList property)
    (String.ofList (unquote value))

/-- `set`, a name, `to` and a value. -/
def readAssign (line : List Char) : Option Statement := do
  let ahead ← keywordBlanks "set".toList line
  let (target, ahead) ← name ahead
  let value ← afterWord "to" ahead
  return .assign (String.ofList target) (String.ofList (unquote value))

/-- `call`, a component and its method, and `with` and arguments if the line goes on. -/
def readCallMethod (line : List Char) : Option Statement := do
  let ahead ← keywordBlanks "call".toList line
  let (component, method, ahead) ← dotted ahead
  let given ← if ahead.isEmpty then some [] else (afterWord "with" ahead).map arguments
  return .callMethod (String.ofList component) (String.ofList method)
    (given.map String.ofList)

/-- `call`, a name and arguments in parentheses. -/
def readCallProcedure (line : List Char) : Option Statement := do
  let ahead ← keywordBlanks "call".toList line
  let (title, ahead) ← name ahead
  let given ← parenthesised ahead
  return .callProcedure (String.ofList title) given

/-- `else`, `if`, a condition and `then`. -/
def readElseIf (line : List Char) : Option Statement := do
  let ahead ← keywordBlanks "else".toList line
  let ahead ← keywordBlanks "if".toList ahead
  let condition ← beforeWord "then".toList ahead
  return .elseIf (String.ofList condition)

/-- `else` alone. -/
def readOtherwise (line : List Char) : Option Statement :=
  if sameLetters line "else".toList then some .otherwise else none

/-- `if`, a condition and `then`. -/
def readBranch (line : List Char) : Option Statement := do
  let ahead ← keywordBlanks "if".toList line
  let condition ← beforeWord "then".toList ahead
  return .branch (String.ofList condition)

/-- `for`, `each`, a name, `in`, a name and `do`. -/
def readForEach (line : List Char) : Option Statement := do
  let ahead ← keywordBlanks "for".toList line
  let ahead ← keywordBlanks "each".toList ahead
  let (item, ahead) ← name ahead
  let ahead ← blanks ahead
  let ahead ← keywordBlanks "in".toList ahead
  let (list, ahead) ← name ahead
  let ahead ← blanks ahead
  let ahead ← keyword "do".toList ahead
  atEnd ahead
  return .forEach (String.ofList item) (String.ofList list)

/-- `while`, a condition and `do`. -/
def readLoop (line : List Char) : Option Statement := do
  let ahead ← keywordBlanks "while".toList line
  let condition ← beforeWord "do".toList ahead
  return .loop (String.ofList condition)

/-- Anything that starts with the letters of `else` or `end`. -/
def readClosing (line : List Char) : Option Statement :=
  if (dropWord? "else".toList line).isSome || (dropWord? "end".toList line).isSome then
    some .closing
  else none

/-- What a rule makes of a whole line. -/
def read : Rule → List Char → Option Statement
  | event => readEvent
  | declare => readDeclare
  | procedure => readProcedure
  | setProperty => readSetProperty
  | assign => readAssign
  | callMethod => readCallMethod
  | callProcedure => readCallProcedure
  | elseIf => readElseIf
  | otherwise => readOtherwise
  | branch => readBranch
  | forEach => readForEach
  | loop => readLoop
  | closing => readClosing

end Rule

/-- What a line says: the statement of the first rule that accepts it. -/
def Statement.read (line : String) : Option Statement :=
  Rule.all.findSome? (fun rule ↦ rule.read line.toList)

end Blockwright.Script
