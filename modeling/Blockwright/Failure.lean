import Blockwright.FileFault
import Blockwright.Json.Error

/-!
# Failures

Why a program, a form or a configuration cannot be read, or a project cannot be made.
-/

namespace Blockwright

/-- Why something cannot be read or made. -/
inductive Failure where
  /-- The document of a program is not an object. -/
  | notAnObject
  /-- A member of a program's document that has to be a list is not one. -/
  | notAList (field : String)
  /-- A form is not wrapped as forms are. -/
  | noEnvelope
  /-- A handler, given by its position, lacks a name. -/
  | unnamedEvent (position : Nat)
  /-- The component of a handler is not one of the program's components. -/
  | unlistedComponent (position : Nat) (component : String)
  /-- A payload cannot be read. -/
  | payload (fileName : String) (fault : FileFault)
  /-- An archive would hold two entries of one path. -/
  | duplicateEntry (path : String)
  /-- A document is refused. -/
  | document (error : Json.Error)
  deriving DecidableEq, Repr

namespace Failure

/-- What is wrong with the input, if the input is at fault. -/
def inputProblem? : Failure → Option String
  | notAnObject => some "document is not an object"
  | notAList field => some (Json.ticked field ++ " must be an array")
  | noEnvelope => some "form file envelope missing"
  | unnamedEvent position =>
    some ("event " ++ toString position ++ " has no component or event name")
  | unlistedComponent position component =>
    some ("event " ++ toString position ++ " refers to " ++ Json.ticked component ++
      " which is not listed in components")
  | _ => none

/-- Whether the input is at fault, rather than the packing of the project. -/
def isInput (failure : Failure) : Bool := failure.inputProblem?.isSome

/-- The message of a failure. Of a document that is not well formed it says only that. -/
def message (failure : Failure) : String :=
  match failure.inputProblem?, failure with
  | some problem, _ => "invalid parsed code: " ++ problem
  | _, payload fileName fault =>
    "failed to add extension file " ++ fileName ++ ": " ++ fault.message
  | _, duplicateEntry path =>
    "archive error: invalid Zip archive: Duplicate filename: " ++ path
  | _, document (.problem problem) => "form serialisation failed: " ++ problem.message
  | _, document (.fault .endOfText) => "form serialisation failed: unexpected end of text"
  | _, _ => "form serialisation failed: malformed document"

end Failure

end Blockwright
