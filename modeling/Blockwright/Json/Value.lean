import Blockwright.Json.Error
import Blockwright.Json.Tree
import Blockwright.Ordered

/-!
# Values

The value of a document, free of how it is written. An object read from a text has its members
in the order of their keys, and of several members with one key it keeps the last.
-/

namespace Blockwright.Json

/-- The value of a document. -/
inductive Value where
  | null
  | bool (value : Bool)
  | number (value : Number)
  | text (content : String)
  | list (items : List Value)
  | object (members : List (String × Value))
  deriving Repr

/-- How many brackets may be nested in a document whose value is read. -/
def maxNesting : Nat := 127

/-- Succeeds at a bracket that is closed. -/
def checkEnding : Option Breach → Except Fault Unit
  | none => .ok ()
  | some breach => .error breach.whenRead

/-- The content of a text that is read. -/
def readContent : Option String → Except Fault String
  | some content => .ok content
  | none => .error .malformed

namespace Value

/-- The value of a tree, with at most `room` brackets nested in it. The first fault in the order
of the text is the one reported. -/
def ofTree (room : Nat) (tree : Tree) : Except Fault Value :=
  match room, tree with
  | _, .null => .ok .null
  | _, .bool b => .ok (.bool b)
  | _, .number numeral =>
    match numeral.value with
    | some n => .ok (.number n)
    | none => .error .malformed
  | _, .text content => return .text (← readContent content)
  | _, .broken breach => .error breach.whenRead
  | 0, .list .. | 0, .object .. => .error .malformed
  | room + 1, .list items ending => do
    let values ← items.mapM (ofTree room)
    checkEnding ending
    return .list values
  | room + 1, .object members ending => do
    let values ← members.foldlM (fun found member ↦ do
      let key ← readContent member.1
      return Ordered.insert key (← ofTree room member.2) found) []
    checkEnding ending
    return .object values
termination_by structural room

/-- The value that a text holds. -/
def read (text : List Char) : Except Fault Value := do
  let document := Document.read text
  let value ← ofTree maxNesting document.root
  if document.trailing then .error .malformed else return value

/-- How messages speak of a value. -/
def found : Value → Found
  | null => .null
  | bool b => .bool b
  | number n => .number n
  | text content => .text content
  | list _ => .list
  | object _ => .object

/-- The refusal of a value of the wrong type. -/
def mismatch {α : Type} (value : Value) (expected : String) : Except Error α :=
  .error (.problem (.wrongType value.found expected))

/-- The content of a text. -/
def asText : Value → Except Error String
  | text content => .ok content
  | value => value.mismatch "a string"

/-- The items of a list, each converted in turn. -/
def asList {α : Type} (convert : Value → Except Error α) : Value → Except Error (List α)
  | list items => items.mapM convert
  | value => value.mismatch "a sequence"

/-- A natural number. -/
def asNatural : Value → Except Error Nat
  | number (.integer n) =>
    if 0 ≤ n then .ok n.toNat
    else .error (.problem (.wrongValue (.number (.integer n)) "usize"))
  | value => value.mismatch "usize"

/-- The member of an object with a given key. -/
def get? (key : String) : Value → Option Value
  | object members => Ordered.get? key members
  | _ => none

mutual

/-- How deep lists and objects are nested in a value. -/
def depth : Value → Nat
  | list items => depthOfItems items + 1
  | object members => depthOfMembers members + 1
  | _ => 0

/-- The greatest depth among items. -/
def depthOfItems : List Value → Nat
  | [] => 0
  | value :: items => max value.depth (depthOfItems items)

/-- The greatest depth among the values of members. -/
def depthOfMembers : List (String × Value) → Nat
  | [] => 0
  | (_, value) :: members => max value.depth (depthOfMembers members)

end

end Value

namespace Tree

/-- The refusal of a tree of the wrong type. A number or a text has to be readable to be named;
of a list or an object only the opening bracket matters. -/
def mismatch {α : Type} (tree : Tree) (expected : String) : Except Error α :=
  let refuse (found : Found) : Except Error α := .error (.problem (.wrongType found expected))
  match tree with
  | null => refuse .null
  | bool b => refuse (.bool b)
  | number numeral =>
    match numeral.value with
    | some n => refuse (.number n)
    | none => .error (.fault .malformed)
  | text (some content) => refuse (.text content)
  | text none => .error (.fault .malformed)
  | list .. => refuse .list
  | object .. => refuse .object
  | broken breach => .error (.fault breach.whenRead)

/-- The content of a text. -/
def asText : Tree → Except Error String
  | text (some content) => .ok content
  | tree => tree.mismatch "a string"

/-- A truth value. -/
def asBool : Tree → Except Error Bool
  | bool b => .ok b
  | tree => tree.mismatch "a boolean"

/-- The items of a list, each converted in turn. -/
def asList {α : Type} (convert : Tree → Except Error α) : Tree → Except Error (List α)
  | list items ending => do
    let values ← items.mapM convert
    (checkEnding ending).mapError .fault
    return values
  | tree => tree.mismatch "a sequence"

/-- The texts of an object with their keys, in written order. -/
def asFields : Tree → Except Error (List (String × String))
  | object members ending => do
    let fields ← members.mapM (fun member ↦ do
      let key ← (readContent member.1).mapError .fault
      return (key, ← member.2.asText))
    (checkEnding ending).mapError .fault
    return fields
  | tree => tree.mismatch "a map"

/-- Passes over a tree without reading its value. -/
def skip : Tree → Except Error Unit
  | list _ (some breach) | object _ (some breach) | broken breach =>
    .error (.fault breach.whenSkipped)
  | _ => .ok ()

end Tree

end Blockwright.Json
