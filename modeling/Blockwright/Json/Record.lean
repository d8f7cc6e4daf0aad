import Blockwright.Json.Value

/-!
# Records

A record is an object with known fields, or a list of the fields' values in declared order.
Fields that need not be given keep the value they have in a blank record, and fields that are
not known are passed over.
-/

namespace Blockwright.Json

/-- A field of a record. -/
structure Field where
  name : String
  /-- Whether the field has to be given. -/
  required : Bool
  deriving DecidableEq, Repr

/-- A field that has to be given. -/
def needed (name : String) : Field := ⟨name, true⟩

/-- A field that may be left out. -/
def optional (name : String) : Field := ⟨name, false⟩

/-- How a record of type `α` is read from parts of type `σ`. -/
structure Record (σ α : Type) where
  /-- What messages call the record. -/
  name : String
  /-- The fields in declared order. -/
  fields : List Field
  /-- The record before any field is given. -/
  blank : α
  /-- The record with one known field given. -/
  set : String → σ → α → Except Error α

namespace Record

variable {σ α : Type}

/-- Whether a record has a field. -/
def has (r : Record σ α) (name : String) : Bool := r.fields.any (fun field ↦ field.name == name)

/-- The number of a record's fields in words. -/
def elements (count : Nat) : String :=
  toString count ++ (if count = 1 then " element" else " elements")

/-- Checks that every field that has to be given is among those seen. -/
def complete (r : Record σ α) (absent : String → Problem) (seen : List String) (a : α) :
    Except Error α :=
  match r.fields.find? (fun field ↦ field.required && !seen.contains field.name) with
  | some field => .error (.problem (absent field.name))
  | none => .ok a

/-- The problem of a list that is too short. -/
def tooShort (r : Record σ α) (length : Nat) (_ : String) : Problem :=
  .wrongLength length (r.name ++ " with " ++ elements r.fields.length)

/-- The record with the fields of members, in the order of the members. -/
def ofMembers (r : Record Value α) (members : List (String × Value)) : Except Error α := do
  let a ← members.foldlM
    (fun a member ↦ if r.has member.1 then r.set member.1 member.2 a else .ok a) r.blank
  r.complete .missingField (members.map (·.1)) a

/-- The record with the fields of a list's items. `tooLong` is expected of a list with more
items than fields. -/
def ofItems (r : Record Value α) (tooLong : String) (items : List Value) : Except Error α := do
  let named := (r.fields.map Field.name).zip items
  let a ← named.foldlM (fun a member ↦ r.set member.1 member.2 a) r.blank
  let a ← r.complete (r.tooShort items.length) (named.map (·.1)) a
  if items.length ≤ r.fields.length then return a
  else .error (.problem (.wrongLength items.length tooLong))

/-- The record that a value holds. -/
def ofValue (r : Record Value α) : Value → Except Error α
  | .object members => r.ofMembers members
  | .list items => r.ofItems "fewer elements in array" items
  | value => value.mismatch r.name

/-- A record being read from the members of an object in written order: it takes one more
member. A known field may be given only once. -/
def take (r : Record Tree α) (sofar : List String × α) (member : Option String × Tree) :
    Except Error (List String × α) := do
  let key ← (readContent member.1).mapError .fault
  if r.has key then
    if sofar.1.contains key then .error (.problem (.duplicateField key))
    else return (key :: sofar.1, ← r.set key member.2 sofar.2)
  else
    member.2.skip
    return sofar

/-- The record that a tree holds, read in the order of the text. -/
def ofTree (r : Record Tree α) : Tree → Except Error α
  | .object members ending => do
    let (seen, a) ← members.foldlM r.take ([], r.blank)
    (checkEnding ending).mapError .fault
    r.complete .missingField seen a
  | .list items ending => do
    let named := (r.fields.map Field.name).zip items
    let a ← named.foldlM (fun a member ↦ r.set member.1 member.2 a) r.blank
    if r.fields.length < items.length then .error (.fault .malformed)
    (checkEnding ending).mapError .fault
    r.complete (r.tooShort items.length) (named.map (·.1)) a
  | tree => tree.mismatch r.name

/-- The record that a text holds, read in the order of the text. -/
def ofText (r : Record Tree α) (text : List Char) : Except Error α := do
  let document := Document.read text
  let a ← r.ofTree document.root
  if document.trailing then .error (.fault .malformed) else return a

end Record

end Blockwright.Json
