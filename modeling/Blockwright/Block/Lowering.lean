import Blockwright.Block
import Blockwright.Script.Program

/-!
# From actions to blocks

Each action of a program becomes one block. An action that lacks a name it cannot do without is
left out, with all that it holds, and reported; a declaration inside a body leaves no block.
-/

namespace Blockwright

open Blockwright.Script

/-- The report of an action that was left out. -/
structure Warning where
  kind : ActionKind
  /-- What the missing name is called. -/
  field : String
  /-- How deep the action is nested, counted from one. -/
  depth : Nat
  deriving DecidableEq, Repr

/-- The names of the slots of a call: the parameters of the procedure of that name, then
numbered names for further arguments. -/
def Script.Program.slots (p : Program) (name : String) (arguments : List String) :
    List String :=
  let parameters := ((p.procedure? name).map Procedure.parameters).getD []
  parameters ++ ((List.range arguments.length).drop parameters.length).map
    (fun i ↦ "arg" ++ toString i)

namespace Catalog

/-- The block of a call, either of a procedure or of a method. -/
def callBlock (c : Catalog) (p : Program) (component method : String)
    (arguments : List String) : Block :=
  let values := arguments.map (Literal.ofText c.config)
  if p.callsProcedure (.call component method arguments) then
    .callProcedure component (p.slots component arguments) values
  else .callMethod (c.typeOf component) component method values

mutual

/-- The block of an action nested `depth` deep, with the reports of what is left out of it. The
actions of an alternative are reported before those of the branch itself. -/
def block (c : Catalog) (p : Program) (depth : Nat) (action : Action) :
    List Warning × Option Block :=
  match action.missingName with
  | some field => ([⟨action.kind, field, depth⟩], none)
  | none =>
    match action with
    | .define .. => ([], none)
    | .setProperty component property value =>
      ([], some (.setProperty (c.typeOf component) component property
        (.ofText c.config value)))
    | .assign target value => ([], some (.setVariable target (.ofText c.config value)))
    | .call component method arguments => ([], some (c.callBlock p component method arguments))
    | .branch condition actions others =>
      let (warnings, otherwise) := blocks c p (depth + 1) others
      let (further, body) := blocks c p (depth + 1) actions
      (warnings ++ further, some (.branch (.ofText c.config condition) body otherwise))
    | .loop condition actions =>
      let (warnings, body) := blocks c p (depth + 1) actions
      (warnings, some (.loop (.ofText c.config condition) body))
    | .forEach item list actions =>
      let (warnings, body) := blocks c p (depth + 1) actions
      (warnings, some (.forEach item list body))

/-- The blocks of the actions of a body, with the reports of what is left out. -/
def blocks (c : Catalog) (p : Program) (depth : Nat) : List Action → List Warning × List Block
  | [] => ([], [])
  | action :: actions =>
    let (warnings, first) := block c p depth action
    let (further, others) := blocks c p depth actions
    (warnings ++ further, first.toList ++ others)

end

/-- The block of a variable. -/
def declarationBlock (c : Catalog) (v : Variable) : TopBlock :=
  .declaration v.name (.ofText c.config v.value)

/-- The block of a procedure, with the reports of what is left out. -/
def procedureBlock (c : Catalog) (p : Program) (procedure : Procedure) :
    List Warning × TopBlock :=
  let (warnings, body) := c.blocks p 1 procedure.actions
  (warnings, .procedure procedure.name procedure.parameters body)

/-- The block of a handler, with the reports of what is left out. -/
def handlerBlock (c : Catalog) (p : Program) (event : Event) : List Warning × TopBlock :=
  let (warnings, body) := c.blocks p 1 event.actions
  (warnings, .handler (c.typeOf event.component) event.component event.event body)

end Catalog

/-! ### Placing -/

namespace PlacedBlock

/-- The distance of every block from the left edge. -/
def left : UInt32 := 20

/-- The distance of the first block from the upper edge. -/
def firstTop : UInt32 := 20

/-- How far below a declaration the next block stands. -/
def declarationStep : UInt32 := 100

/-- How far below any other block the next block stands. -/
def blockStep : UInt32 := 150

/-- Places blocks one below the other; also where the next one goes. -/
def column (step : UInt32) : UInt32 → List TopBlock → List PlacedBlock × UInt32
  | top, [] => ([], top)
  | top, block :: blocks =>
    let (placed, next) := column step (top + step) blocks
    (⟨top, block⟩ :: placed, next)

end PlacedBlock

/-- The blocks of a program, declarations first, then procedures, then handlers, each in the
program's order and lower than the one before, with the reports of what is left out. -/
def Catalog.canvas (c : Catalog) (p : Program) : List Warning × List PlacedBlock :=
  let procedures := p.procedures.map (c.procedureBlock p)
  let handlers := p.events.map (c.handlerBlock p)
  let (first, top) := PlacedBlock.column PlacedBlock.declarationStep PlacedBlock.firstTop
    (p.globals.map c.declarationBlock)
  let (second, top) := PlacedBlock.column PlacedBlock.blockStep top (procedures.map Prod.snd)
  let (third, _) := PlacedBlock.column PlacedBlock.blockStep top (handlers.map Prod.snd)
  ((procedures ++ handlers).flatMap Prod.fst, first ++ second ++ third)

end Blockwright
