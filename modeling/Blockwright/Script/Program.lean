import Blockwright.Script.Action

/-!
# Programs

What a script says as a whole: its event handlers, variables and procedures, the components it
names, and the lines that could not be used.
-/

namespace Blockwright.Script

/-- The handler of a component's event. -/
structure Event where
  component : String
  event : String
  actions : List Action
  deriving DecidableEq, Repr

/-- A variable with its first value. -/
structure Variable where
  name : String
  value : String
  deriving DecidableEq, Repr

/-- A procedure. -/
structure Procedure where
  name : String
  parameters : List String
  actions : List Action
  deriving DecidableEq, Repr

/-- What is wrong with a line of a script. -/
structure Diagnostic where
  /-- The line's number, counted from one. -/
  line : Nat
  message : String
  deriving DecidableEq, Repr

/-- A whole program. -/
structure Program where
  events : List Event
  globals : List Variable
  procedures : List Procedure
  /-- The names of the components; in a program made from a script, in ascending order. -/
  components : List String
  diagnostics : List Diagnostic
  deriving DecidableEq, Repr

namespace Program

/-- The program that says nothing. -/
def empty : Program := ⟨[], [], [], [], []⟩

/-- Whether some line could not be used. -/
def isFaulty (p : Program) : Bool := !p.diagnostics.isEmpty

/-- Whether an action calls a procedure: a call that names one thing as both component and method,
unless the program has a component of that name. -/
def callsProcedure (p : Program) (action : Action) : Bool :=
  match action with
  | .call component .. => action.isProcedureCall && !p.components.contains component
  | _ => false

/-- Which calls are calls of a procedure. -/
@[simp] theorem callsProcedure_call {p : Program} {component method : String}
    {arguments : List String} :
    p.callsProcedure (.call component method arguments) ↔
      component = method ∧ component ∉ p.components := by
  simp [callsProcedure, Action.isProcedureCall]

/-- The first procedure with a name. -/
def procedure? (p : Program) (name : String) : Option Procedure :=
  p.procedures.find? (fun procedure ↦ procedure.name == name)

end Program

end Blockwright.Script
