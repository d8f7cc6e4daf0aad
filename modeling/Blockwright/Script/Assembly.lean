import Blockwright.Ordered
import Blockwright.Script.Scope
import Blockwright.Script.Source
import Blockwright.Script.Statement

/-!
# From a script to a program

The lines of a script are taken one after the other. A line that no rule accepts, or an action
outside of any block, becomes a diagnostic, and reading goes on with the next line; so every
text makes a program.
-/

namespace Blockwright.Script

/-- The complaint about a line that no rule accepts. -/
def invalidSyntax : String := "Invalid syntax - see documentation for supported commands"

/-- The complaint about a line outside of any block. -/
def noScope : String :=
  "Action found without preceding event handler, procedure, or control structure"

/-- The complaint about an arm without its conditional. -/
def elseWithoutIf : String := "Else without matching If"

/-- A program being put together, and its open blocks. -/
structure Assembly where
  scope : Scope
  program : Program
  deriving DecidableEq, Repr

namespace Assembly

/-- Nothing read yet. -/
def empty : Assembly := ⟨[], Program.empty⟩

/-- Adds a finished root to a program. -/
def store (p : Program) : Root → Program
  | .event event => { p with events := p.events ++ [event] }
  | .procedure procedure => { p with procedures := p.procedures ++ [procedure] }

/-- Takes over what is left of the open blocks and the roots that were closed. -/
def settle (a : Assembly) (result : List Root × Scope) : Assembly :=
  ⟨result.2, result.1.foldl store a.program⟩

/-- Closes every block opened at this indentation or deeper. -/
def closeTo (indent : Nat) (a : Assembly) : Assembly := a.settle (a.scope.closeTo indent)

/-- Closes every block opened deeper than this indentation. -/
def closeDeeper (indent : Nat) (a : Assembly) : Assembly := a.settle (a.scope.closeDeeper indent)

/-- Closes every block. -/
def closeAll (a : Assembly) : Assembly := a.settle a.scope.closeAll

/-- Complains about a line. -/
def complain (number : Nat) (message : String) (a : Assembly) : Assembly :=
  { a with program :=
    { a.program with diagnostics := a.program.diagnostics ++ [⟨number, message⟩] } }

/-- Notes that the program names a component. -/
def mention (component : String) (a : Assembly) : Assembly :=
  { a with program :=
    { a.program with components := Ordered.insertName component a.program.components } }

/-- Notes a variable. -/
def declare (name value : String) (a : Assembly) : Assembly :=
  { a with program := { a.program with globals := a.program.globals ++ [⟨name, value⟩] } }

/-- Takes over changed open blocks, or does something else if there was no change. -/
def withScope (a : Assembly) (changed : Option Scope) (instead : Assembly → Assembly) :
    Assembly :=
  match changed with
  | some scope => { a with scope }
  | none => instead a

/-- Opens a handler or procedure. -/
def openRoot (line : SourceLine) (header : Header) (a : Assembly) : Assembly :=
  let a := a.closeAll
  a.withScope (a.scope.push (.opened line.indent header)) id

/-- Adds an action to the block that the line belongs to, and notes the component it names. -/
def perform (line : SourceLine) (component : Option String) (action : Action) (a : Assembly) :
    Assembly :=
  let a := a.closeTo line.indent
  match a.scope.add action with
  | some scope => component.elim { a with scope } (fun name ↦ mention name { a with scope })
  | none => a.complain line.number noScope

/-- Opens a control structure in the block that the line belongs to. -/
def openControl (line : SourceLine) (header : Header) (a : Assembly) : Assembly :=
  let a := a.closeTo line.indent
  a.withScope (a.scope.push (.opened line.indent header)) (complain line.number noScope)

/-- What happens to an arm without its conditional: it closes blocks like any other line. -/
def strayArm (line : SourceLine) (a : Assembly) : Assembly :=
  (a.complain line.number elseWithoutIf).closeTo line.indent

/-- Takes one line that says something known. -/
def takeStatement (line : SourceLine) (a : Assembly) : Statement → Assembly
  | .event component event =>
    (a.openRoot line (.event component event)).mention component
  | .procedure name parameters => a.openRoot line (.procedure name parameters)
  | .declare name value =>
    let a := a.closeTo line.indent
    (a.withScope (a.scope.add (.define name value)) id).declare name value
  | .setProperty component property value =>
    a.perform line (some component) (.setProperty component property value)
  | .assign target value => a.perform line none (.assign target value)
  | .callMethod component method arguments =>
    a.perform line (some component) (.call component method arguments)
  | .callProcedure name arguments => a.perform line none (.call name name arguments)
  | .branch condition => a.openControl line (.branch condition [] false)
  | .loop condition => a.openControl line (.loop condition)
  | .forEach item list => a.openControl line (.forEach item list)
  | .elseIf condition =>
    let a := a.closeDeeper line.indent
    a.withScope (a.scope.elseIf line.indent condition) (strayArm line)
  | .otherwise =>
    let a := a.closeDeeper line.indent
    a.withScope (a.scope.otherwise line.indent) (strayArm line)
  | .closing => a.closeTo line.indent

/-- Takes one line. -/
def take (a : Assembly) (line : SourceLine) : Assembly :=
  match Statement.read line.text with
  | some statement => a.takeStatement line statement
  | none => a.complain line.number invalidSyntax

/-- The program when the script is over. -/
def finish (a : Assembly) : Program := a.closeAll.program

end Assembly

/-- The program that a script makes. -/
def Program.ofScript (script : String) : Program :=
  ((sourceLines script).foldl Assembly.take Assembly.empty).finish

end Blockwright.Script
