import Blockwright.Script.Program

/-!
# Open blocks

Every header line opens a block at its indentation, and a later line that is indented no deeper
closes it. A closed handler or procedure is a root of the program; a closed control structure
becomes an action of the block around it.
-/

namespace Blockwright.Script

/-- One finished arm of a conditional: its condition and its body. -/
abbrev Arm := String × List Action

/-- What opened a block. -/
inductive Header where
  /-- The handler of a component's event. -/
  | event (component event : String)
  /-- A procedure. -/
  | procedure (name : String) (parameters : List String)
  /-- A conditional: the condition of the arm being filled, the arms before it in order, and
  whether the arm being filled is the last, unconditional one. -/
  | branch (condition : String) (arms : List Arm) (inElse : Bool)
  /-- A loop that runs while its condition holds. -/
  | loop (condition : String)
  /-- A loop over the items of a list. -/
  | forEach (item list : String)
  deriving DecidableEq, Repr

/-- Whether a header opens a block at the top of a program. -/
def Header.isRoot : Header → Bool
  | event .. | procedure .. => true
  | _ => false

/-- An open block with the actions inside it so far. -/
structure Frame where
  indent : Nat
  header : Header
  actions : List Action
  deriving DecidableEq, Repr

/-- A finished handler or procedure. -/
inductive Root where
  | event (value : Event)
  | procedure (value : Procedure)
  deriving DecidableEq, Repr

/-- What a block becomes when it is closed. -/
inductive Closed where
  | root (value : Root)
  | action (value : Action)
  deriving DecidableEq, Repr

/-- The arms of a conditional as nested conditionals, each in the `otherwise` of the one before,
with `last` in the innermost. -/
def nestArms (last : List Action) : List Arm → List Action
  | [] => last
  | (condition, body) :: arms => [.branch condition body (nestArms last arms)]

/-- The conditional that arms make up; without any arm its condition is empty. -/
def branchOfArms (last : List Action) : List Arm → Action
  | [] => .branch "" [] last
  | (condition, body) :: arms => .branch condition body (nestArms last arms)

namespace Frame

/-- An open block without actions. -/
def opened (indent : Nat) (header : Header) : Frame := ⟨indent, header, []⟩

/-- An open block with one more action at its end. -/
def add (f : Frame) (action : Action) : Frame := { f with actions := f.actions ++ [action] }

/-- What an open block becomes when it is closed. -/
def close (f : Frame) : Closed :=
  match f.header with
  | .event component event => .root (.event ⟨component, event, f.actions⟩)
  | .procedure name parameters => .root (.procedure ⟨name, parameters, f.actions⟩)
  | .branch _ arms true => .action (branchOfArms f.actions arms)
  | .branch condition arms false =>
    .action (branchOfArms [] (arms ++ [(condition, f.actions)]))
  | .loop condition => .action (.loop condition f.actions)
  | .forEach item list => .action (.forEach item list f.actions)

/-- Starts an arm of the conditional opened at exactly this indentation, unless its last one has
been started. A further arm has a condition, and the `last` one has none. -/
def startArm (indent : Nat) (condition : String) (last : Bool) (f : Frame) : Option Frame :=
  match f.header with
  | .branch current arms false =>
    if f.indent = indent then
      some ⟨indent, .branch condition (arms ++ [(current, f.actions)]) last, []⟩
    else none
  | _ => none

end Frame

/-- The open blocks, the innermost one first. -/
abbrev Scope := List Frame

namespace Scope

/-- Opens a block. A control structure has to stand inside another block. -/
def push (frame : Frame) (scope : Scope) : Option Scope :=
  if scope.isEmpty && !frame.header.isRoot then none else some (frame :: scope)

/-- Adds an action to the innermost block, if there is one. -/
def add (action : Action) : Scope → Option Scope
  | [] => none
  | frame :: scope => some (frame.add action :: scope)

/-- Closes blocks from the inside as long as they satisfy a test, after adding the action that
is `carried` out of a block just closed. An action carried out of the outermost block is lost. -/
def closeWhile (test : Frame → Bool) : Option Action → Scope → List Root × Scope
  | _, [] => ([], [])
  | carried, frame :: scope =>
    let frame := carried.elim frame frame.add
    if test frame then
      match frame.close with
      | .root root =>
        let (roots, scope) := closeWhile test none scope
        (root :: roots, scope)
      | .action action => closeWhile test (some action) scope
    else ([], frame :: scope)

/-- Closes every block opened at this indentation or deeper. -/
def closeTo (indent : Nat) (scope : Scope) : List Root × Scope :=
  closeWhile (fun frame ↦ indent ≤ frame.indent) none scope

/-- Closes every block opened deeper than this indentation. -/
def closeDeeper (indent : Nat) (scope : Scope) : List Root × Scope :=
  closeWhile (fun frame ↦ indent < frame.indent) none scope

/-- Closes every block. -/
def closeAll (scope : Scope) : List Root × Scope := closeWhile (fun _ ↦ true) none scope

/-- Changes the innermost block, if the change applies to it. -/
def modify (change : Frame → Option Frame) : Scope → Option Scope
  | [] => none
  | frame :: scope => (change frame).map (· :: scope)

/-- Starts a further arm of the innermost block. -/
def elseIf (indent : Nat) (condition : String) (scope : Scope) : Option Scope :=
  modify (Frame.startArm indent condition false) scope

/-- Starts the last arm of the innermost block. -/
def otherwise (indent : Nat) (scope : Scope) : Option Scope :=
  modify (Frame.startArm indent "" true) scope

end Scope

end Blockwright.Script
