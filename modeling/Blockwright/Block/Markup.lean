import Blockwright.Block.Lowering
import Blockwright.Markup

/-!
# Blocks as markup

How each block is written. A block's element holds a `mutation` with what shapes the block, its
titles, its inputs and its bodies. Of the blocks in a body only the first is in the body's
element; each further one is in a `next` of the one before it.
-/

namespace Blockwright

namespace Markup

/-- The element of a title. -/
def title (name content : String) : Element := .leaf "title" [("name", name)] content

/-- The element of a block. -/
def block (type : String) (children : List Element) : Element :=
  .node "block" [("type", type)] children

/-- The element of an input. -/
def input (name : String) (element : Element) : Element :=
  .node "value" [("name", name)] [element]

/-- The element of a mutation. -/
def mutation (attributes : List (String × String)) (children : List Element) : Element :=
  .node "mutation" attributes children

/-- The element that names a parameter. -/
def parameter (name : String) : Element := .node "arg" [("name", name)] []

/-- The element of a body, if its chain of blocks is not empty. -/
def statement (name : String) (chain : List Element) : List Element :=
  if chain.isEmpty then [] else [.node "statement" [("name", name)] chain]

/-- The element that links to the following blocks, if there are any. -/
def next (chain : List Element) : List Element :=
  if chain.isEmpty then [] else [.node "next" [] chain]

end Markup

open Markup

/-- The element of a literal. -/
def Literal.element : Literal → Element
  | color block argb => Markup.block block [title "COLOR" argb]
  | number digits => Markup.block "math_number" [title "NUM" digits]
  | boolean value =>
    Markup.block "logic_boolean" [title "BOOL" (if value then "TRUE" else "FALSE")]
  | text content => Markup.block "text" [title "TEXT" content]

/-- The numbered inputs of some arguments. -/
def Literal.inputs (arguments : List Literal) : List Element :=
  arguments.mapIdx (fun i argument ↦ input ("ARG" ++ toString i) argument.element)

namespace Block

mutual

/-- The element of a block that has `rest` after its own children. -/
def element (rest : List Element) : Block → Element
  | setProperty type component property value =>
    Markup.block "component_set_get" ([
      mutation [("component_type", type.name), ("set_or_get", "set"),
        ("property_name", property),
        ("is_generic", if type.isExtension then "true" else "false"),
        ("instance_name", component)] [],
      title "COMPONENT_SELECTOR" component,
      input "VALUE" value.element] ++ rest)
  | setVariable target value =>
    Markup.block "lexical_variable_set"
      ([title "VAR" target, input "VALUE" value.element] ++ rest)
  | callProcedure name slots arguments =>
    Markup.block "procedures_callnoreturn" ([
      mutation [("name", name)] (slots.map parameter),
      title "PROCNAME" name] ++ Literal.inputs arguments ++ rest)
  | callMethod type component method arguments =>
    Markup.block "component_method" ([
      mutation [("component_type", type.name), ("method_name", method),
        ("is_generic", "false"), ("instance_name", component)] [],
      title "COMPONENT_SELECTOR" component] ++ Literal.inputs arguments ++ rest)
  | branch condition body otherwise =>
    Markup.block "controls_if"
      ((if otherwise.isEmpty then [] else [mutation [("else", "1")] []]) ++
        [input "IF0" condition.element] ++ statement "DO0" (chain body) ++
        statement "ELSE" (chain otherwise) ++ rest)
  | loop condition body =>
    Markup.block "controls_whileUntil"
      ([title "MODE" "WHILE", input "BOOL" condition.element] ++ statement "DO" (chain body) ++
        rest)
  | forEach item list body =>
    Markup.block "controls_forEach"
      ([title "VAR" item,
        input "LIST" (Markup.block "lexical_variable_get" [title "VAR" list])] ++
        statement "DO" (chain body) ++ rest)

/-- The blocks of a body in one element, each but the first inside the one before it. -/
def chain : List Block → List Element
  | [] => []
  | block :: blocks => [element (next (chain blocks)) block]

end

end Block

/-- The type and the children of a block that stands on its own. -/
def TopBlock.content : TopBlock → String × List Element
  | declaration name value =>
    ("global_declaration", [title "NAME" name, input "VALUE" value.element])
  | procedure name parameters body =>
    ("procedures_defnoreturn",
      [mutation [] (parameters.map parameter), title "NAME" name] ++
        statement "STACK" (Block.chain body))
  | handler type component event body =>
    ("component_event",
      [mutation [("component_type", type.name), ("instance_name", component),
        ("event_name", event), ("is_generic", "false")] [],
        title "COMPONENT_SELECTOR" component] ++ statement "DO" (Block.chain body))

/-- The element of a placed block. -/
def PlacedBlock.element (placed : PlacedBlock) : Element :=
  let (type, children) := placed.block.content
  .node "block" [("type", type), ("x", toString PlacedBlock.left.toNat),
    ("y", toString placed.top.toNat)] children

/-- The name space of the elements of blocks. -/
def blocksNamespace : String := "https://developers.google.com/blockly/xml"

/-- The tree of a program's blocks. -/
def blocksDocument (placed : List PlacedBlock) : Element :=
  .node "xml" [("xmlns", blocksNamespace)] (placed.map PlacedBlock.element)

end Blockwright
