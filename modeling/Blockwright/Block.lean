import Blockwright.Catalog
import Blockwright.Literal

/-!
# Blocks

A program for the block editor: blocks that stand on their own, and the blocks in their bodies.
Every block knows the type of the component that it speaks of.
-/

namespace Blockwright

/-- A block in a body. -/
inductive Block where
  /-- Sets a property of a component. -/
  | setProperty (type : ComponentType) (component property : String) (value : Literal)
  /-- Sets a variable. -/
  | setVariable (target : String) (value : Literal)
  /-- Calls a procedure, whose parameters are named by the slots. -/
  | callProcedure (name : String) (slots : List String) (arguments : List Literal)
  /-- Calls a method of a component. -/
  | callMethod (type : ComponentType) (component method : String) (arguments : List Literal)
  /-- A conditional. -/
  | branch (condition : Literal) (body otherwise : List Block)
  /-- A loop that runs while its condition holds. -/
  | loop (condition : Literal) (body : List Block)
  /-- A loop over the items of a list. -/
  | forEach (item list : String) (body : List Block)
  deriving Repr

/-- A block that stands on its own. -/
inductive TopBlock where
  /-- Declares a variable. -/
  | declaration (name : String) (value : Literal)
  /-- Defines a procedure. -/
  | procedure (name : String) (parameters : List String) (body : List Block)
  /-- Handles an event of a component. -/
  | handler (type : ComponentType) (component event : String) (body : List Block)
  deriving Repr

/-- A block that stands on its own, with its distance from the upper edge. -/
structure PlacedBlock where
  top : UInt32
  block : TopBlock
  deriving Repr

end Blockwright
