import Blockwright.Json.Token
import Blockwright.Text.Quoted

/-!
# Why a document is refused

A document is refused because it is not well formed, or because it is well formed and does not
have the expected shape. A problem of shape has a message; it names what was found and what was
expected.
-/

namespace Blockwright.Json

/-- What was found in a document where something else was expected. -/
inductive Found where
  | null
  | bool (value : Bool)
  | number (value : Number)
  | text (content : String)
  | list
  | object
  deriving DecidableEq, Repr

/-- A problem with the shape of a document. -/
inductive Problem where
  /-- A field that has to be given is not. -/
  | missingField (field : String)
  /-- A field is given twice. -/
  | duplicateField (field : String)
  /-- A tag is none of the known ones. -/
  | unknownTag (tag : String) (known : List String)
  /-- A value of another type was expected. -/
  | wrongType (found : Found) (expected : String)
  /-- A value of the right type is out of its range. -/
  | wrongValue (found : Found) (expected : String)
  /-- A list has the wrong number of items. -/
  | wrongLength (length : Nat) (expected : String)
  deriving DecidableEq, Repr

/-- Why a document is refused. -/
inductive Error where
  /-- It is not well formed. -/
  | fault (fault : Fault)
  /-- It does not have the expected shape. -/
  | problem (problem : Problem)
  deriving DecidableEq, Repr

/-- A name between the marks that messages put around names. -/
def ticked (name : String) : String := "`" ++ name ++ "`"

/-- How messages speak of a value. -/
def Found.describe : Found → String
  | null => "null"
  | bool value => "boolean " ++ ticked (if value then "true" else "false")
  | number (.integer value) => "integer " ++ ticked (Number.integer value).text
  | number (.real negative size) =>
    "floating point " ++ ticked (Number.real negative size).text
  | text content => "string " ++ Text.quoted content
  | list => "sequence"
  | object => "map"

/-- The message of a problem. -/
def Problem.message : Problem → String
  | missingField field => "missing field " ++ ticked field
  | duplicateField field => "duplicate field " ++ ticked field
  | unknownTag tag known =>
    "unknown variant " ++ ticked tag ++ ", expected one of " ++
      ", ".intercalate (known.map ticked)
  | wrongType found expected => "invalid type: " ++ found.describe ++ ", expected " ++ expected
  | wrongValue found expected => "invalid value: " ++ found.describe ++ ", expected " ++ expected
  | wrongLength length expected =>
    "invalid length " ++ toString length ++ ", expected " ++ expected

end Blockwright.Json
