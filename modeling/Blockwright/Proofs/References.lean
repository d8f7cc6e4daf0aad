import Blockwright.Proofs.Lowering
import Blockwright.Proofs.Walk

/-!
# What blocks speak of

Some blocks speak of a component and its type. The markup of a program's blocks speaks of the
components that the nodes of the program name, one after the other, if no node lacks a name.
-/

namespace Blockwright

open Script Markup

/-! ### Elements that speak of components -/

namespace Element

mutual

/-- An element and all elements inside it. -/
def parts : Element → List Element
  | node tag attributes children => node tag attributes children :: partsOf children
  | leaf tag attributes content => [leaf tag attributes content]

/-- Some elements and all elements inside them. -/
def partsOf : List Element → List Element
  | [] => []
  | e :: es => parts e ++ partsOf es

end

/-- The types of blocks that speak of a component. -/
def componentBlocks : List String := ["component_event", "component_set_get", "component_method"]

/-- The component that a block speaks of, with its type. -/
def reference? (e : Element) : Option (String × String) := do
  let type ← e.blockType?
  if type ∈ componentBlocks then
    return (← e.mutation? "instance_name", ← e.mutation? "component_type")
  else none

/-- The components that some elements and those inside them speak of, in order. -/
def references (es : List Element) : List (String × String) := (partsOf es).filterMap reference?

private theorem references_append (es others : List Element) :
    references (es ++ others) = references es ++ references others := by
  have hparts : partsOf (es ++ others) = partsOf es ++ partsOf others := by
    induction es with
    | nil => rfl
    | cons e es ih => rw [List.cons_append, partsOf, partsOf, ih, List.append_assoc]
  rw [references, hparts, List.filterMap_append]
  rfl

private theorem references_node (tag : String) (attributes : List (String × String))
    (children : List Element) : references [node tag attributes children] =
      (node tag attributes children).reference?.toList ++ references children := by
  rw [references, partsOf, partsOf, List.append_nil, parts, List.filterMap_cons]
  cases (node tag attributes children).reference? <;> rfl

private theorem references_leaf (tag : String) (attributes : List (String × String))
    (content : String) :
    references [leaf tag attributes content] = [] := by
  have hnone : (leaf tag attributes content).reference? = none := by
    rw [reference?]
    cases (leaf tag attributes content).blockType? with
    | none => rfl
    | some type =>
      show ite _ _ _ = _
      split <;> rfl
  simp [references, partsOf, parts, hnone]

private theorem references_of_tag {tag : String} (h : tag ≠ "block")
    (attributes : List (String × String)) (children : List Element) :
    references [node tag attributes children] = references children := by
  have hnone : (node tag attributes children).reference? = none := by
    rw [reference?, blockType?, Element.tag, if_neg h]
    rfl
  rw [references_node, hnone]
  rfl

end Element

open Element

/-! ### Markup of blocks -/

namespace Markup

variable (name : String)

@[simp] private theorem references_nil : references [] = [] := rfl

private theorem references_cons (e : Element) (es : List Element) :
    references (e :: es) = references [e] ++ references es := references_append [e] es

@[simp] private theorem references_title (content : String) :
    references [title name content] = [] :=
  references_leaf _ _ _

@[simp] private theorem references_input (e : Element) :
    references [input name e] = references [e] :=
  references_of_tag (by decide) _ _

@[simp] private theorem references_mutation (attributes : List (String × String))
    (children : List Element) : references [mutation attributes children] = references children :=
  references_of_tag (by decide) _ _

@[simp] private theorem references_statement (chain : List Element) :
    references (statement name chain) = references chain := by
  rw [statement]
  split
  · next h => rw [List.isEmpty_iff.mp h]
  · exact references_of_tag (by decide) _ _

@[simp] private theorem references_next (chain : List Element) :
    references (next chain) = references chain := by
  rw [next]
  split
  · next h => rw [List.isEmpty_iff.mp h]
  · exact references_of_tag (by decide) _ _

private theorem references_eq_nil {es : List Element} (h : ∀ e ∈ es, references [e] = []) :
    references es = [] := by
  induction es with
  | nil => rfl
  | cons e es ih =>
    rw [references_cons, h e List.mem_cons_self,
      ih (fun other ho ↦ h other (List.mem_cons_of_mem _ ho))]
    rfl

@[simp] private theorem references_parameters (names : List String) :
    references (names.map parameter) = [] := by
  apply references_eq_nil
  intro e he
  obtain ⟨name, -, rfl⟩ := List.mem_map.mp he
  exact references_of_tag (by decide) _ _

private theorem references_block {type : String} (h : type ∉ componentBlocks)
    (attributes : List (String × String)) (children : List Element) :
    references [.node "block" (("type", type) :: attributes) children] = references children := by
  have hnone : (node "block" (("type", type) :: attributes) children).reference? = none := by
    show ite (type ∈ componentBlocks) _ _ = _
    rw [if_neg h]
  rw [references_node, hnone]
  rfl

end Markup

@[simp] private theorem Literal.references_element (literal : Literal) :
    references [literal.element] = [] := by
  have hblock (type name content : String) :
      references [Markup.block type [title name content]] = [] := by
    have hnone : (Markup.block type [title name content]).reference? = none := by
      show ite (type ∈ componentBlocks) _ _ = _
      split <;> rfl
    rw [Markup.block] at hnone ⊢
    rw [references_node, hnone, references_title]
    rfl
  cases literal <;> exact hblock _ _ _

@[simp] private theorem Literal.references_inputs (arguments : List Literal) :
    references (Literal.inputs arguments) = [] := by
  apply references_eq_nil
  intro e he
  obtain ⟨i, hi, rfl⟩ := List.mem_mapIdx.mp he
  rw [references_input, references_element]

namespace Block

mutual

/-- The components that a block and those inside it speak of, each with its type. -/
def references : Block → List (String × String)
  | setProperty type component _ _ => [(component, type.name)]
  | setVariable .. => []
  | callProcedure .. => []
  | callMethod type component _ _ => [(component, type.name)]
  | branch _ body otherwise => referencesOf body ++ referencesOf otherwise
  | loop _ body => referencesOf body
  | forEach _ _ body => referencesOf body

/-- The components that some blocks and those inside them speak of, each with its type. -/
def referencesOf : List Block → List (String × String)
  | [] => []
  | block :: blocks => references block ++ referencesOf blocks

end

mutual

private theorem references_element (rest : List Element) (block : Block) :
    Element.references [block.element rest] = block.references ++ Element.references rest := by
  cases block with
  | setProperty type component property value =>
    have hown : (element rest (setProperty type component property value)).reference? =
        some (component, type.name) := rfl
    rw [element, Markup.block] at hown ⊢
    rw [references_node, hown, references_append, references_cons,
      references_cons (title "COMPONENT_SELECTOR" component)]
    simp [references]
  | setVariable target value =>
    rw [element, Markup.block, references_block (by decide), references_append, references_cons]
    simp [references]
  | callProcedure name slots arguments =>
    rw [element, Markup.block, references_block (by decide), references_append, references_append,
      references_cons]
    simp [references]
  | callMethod type component method arguments =>
    have hown : (element rest (callMethod type component method arguments)).reference? =
        some (component, type.name) := rfl
    rw [element, Markup.block] at hown ⊢
    rw [references_node, hown, references_append, references_append, references_cons]
    simp [references]
  | branch condition body otherwise =>
    have hmutation : Element.references
        (if otherwise.isEmpty then [] else [mutation [("else", "1")] []]) = [] := by
      split <;> simp
    rw [element, Markup.block, references_block (by decide), references_append, references_append,
      references_append, references_append, hmutation]
    simp [references, references_chain body, references_chain otherwise]
  | loop condition body =>
    rw [element, Markup.block, references_block (by decide), references_append, references_append,
      references_cons]
    simp [references, references_chain body]
  | forEach item list body =>
    rw [element, Markup.block, references_block (by decide), references_append, references_append,
      references_cons, references_input, Markup.block, references_block (by decide)]
    simp [references, references_chain body]

private theorem references_chain (blocks : List Block) :
    Element.references (chain blocks) = referencesOf blocks := by
  cases blocks with
  | nil => rfl
  | cons block blocks =>
    rw [chain, references_element, references_next, references_chain blocks, referencesOf]

end

end Block

private theorem Block.referencesOf_append (blocks others : List Block) :
    referencesOf (blocks ++ others) = referencesOf blocks ++ referencesOf others := by
  induction blocks with
  | nil => rfl
  | cons block blocks ih =>
    rw [List.cons_append, referencesOf, ih, referencesOf, List.append_assoc]

/-- The components that a block on its own and those inside it speak of, each with its type. -/
def TopBlock.references : TopBlock → List (String × String)
  | declaration .. => []
  | procedure _ _ body => Block.referencesOf body
  | handler type component _ body => (component, type.name) :: Block.referencesOf body

private theorem PlacedBlock.references_element (placed : PlacedBlock) :
    Element.references [placed.element] = placed.block.references := by
  obtain ⟨top, block⟩ := placed
  cases block with
  | declaration name value =>
    rw [PlacedBlock.element]
    dsimp only [TopBlock.content]
    rw [references_block (by decide), references_cons]
    simp [TopBlock.references]
  | procedure name parameters body =>
    rw [PlacedBlock.element]
    dsimp only [TopBlock.content]
    rw [references_block (by decide), references_append, references_cons]
    simp [TopBlock.references, Block.references_chain]
  | handler type component event body =>
    have hown : (PlacedBlock.element ⟨top, .handler type component event body⟩).reference? =
        some (component, type.name) := rfl
    rw [PlacedBlock.element] at hown ⊢
    dsimp only [TopBlock.content] at hown ⊢
    rw [references_node, hown, references_append, references_cons]
    simp [TopBlock.references, Block.references_chain]

/-! ### Nodes that speak of components -/

namespace Script

/-- Whether a node has all the names that it cannot do without. -/
def Node.Named : Node → Prop
  | event component occurrence => component ≠ "" ∧ occurrence ≠ ""
  | procedure name _ => name ≠ ""
  | setProperty component property _ => component ≠ "" ∧ property ≠ ""
  | assign target _ => target ≠ ""
  | call component method _ => component ≠ "" ∧ method ≠ ""
  | define target _ => target ≠ ""
  | branch condition => condition ≠ ""
  | loop condition => condition ≠ ""
  | forEach item list => item ≠ "" ∧ list ≠ ""

/-- An action whose node has all names lacks none. -/
theorem Action.missingName_eq_none {action : Action} (h : ∀ node ∈ action.nodes, node.Named) :
    action.missingName = none := by
  cases action <;> simp_all [Action.nodes, Node.Named, missingName, neededNames]

/-- The component that a node of a program speaks of. A call of a procedure speaks of none. -/
def Program.mention? (p : Program) : Node → Option String
  | .event component _ => some component
  | .setProperty component _ _ => some component
  | .call component method arguments =>
    if p.callsProcedure (.call component method arguments) then none else some component
  | _ => none

end Script

namespace Catalog

variable (c : Catalog) (p : Program)

/-- A component together with its type's name. -/
def reference (component : String) : String × String := (component, (c.typeOf component).name)

/-- The components that some nodes speak of, each with its type. -/
def referencesOf (nodes : List Node) : List (String × String) :=
  (nodes.filterMap p.mention?).map c.reference

private theorem referencesOf_append (nodes others : List Node) :
    c.referencesOf p (nodes ++ others) = c.referencesOf p nodes ++ c.referencesOf p others := by
  rw [referencesOf, List.filterMap_append, List.map_append]
  rfl

private theorem referencesOf_cons (node : Node) (nodes : List Node) :
    c.referencesOf p (node :: nodes) =
      ((p.mention? node).map c.reference).toList ++ c.referencesOf p nodes := by
  rw [referencesOf, List.filterMap_cons]
  cases p.mention? node <;> rfl

private theorem references_callBlock (component method : String) (arguments : List String) :
    (c.callBlock p component method arguments).references =
      c.referencesOf p [.call component method arguments] := by
  rw [referencesOf_cons, callBlock, Program.mention?]
  split <;> rfl

mutual

private theorem references_block (depth : Nat) (action : Action)
    (h : ∀ node ∈ action.nodes, node.Named) :
    Block.referencesOf (c.block p depth action).2.toList = c.referencesOf p action.nodes := by
  rw [block.eq_def, Action.missingName_eq_none h]
  cases action with
  | define target value => rfl
  | setProperty component property value => rfl
  | assign target value => rfl
  | call component method arguments =>
    dsimp only
    rw [Option.toList_some, Block.referencesOf, Block.referencesOf, List.append_nil,
      references_callBlock, Action.nodes]
  | branch condition body otherwise =>
    rw [Action.nodes, List.forall_mem_cons, List.forall_mem_append] at h
    rw [Action.nodes, referencesOf_cons, referencesOf_append,
      ← references_blocks (depth + 1) body h.2.1, ← references_blocks (depth + 1) otherwise h.2.2]
    exact List.append_nil _
  | loop condition body =>
    rw [Action.nodes, List.forall_mem_cons] at h
    rw [Action.nodes, referencesOf_cons, ← references_blocks (depth + 1) body h.2]
    exact List.append_nil _
  | forEach item list body =>
    rw [Action.nodes, List.forall_mem_cons] at h
    rw [Action.nodes, referencesOf_cons, ← references_blocks (depth + 1) body h.2]
    exact List.append_nil _

private theorem references_blocks (depth : Nat) (actions : List Action)
    (h : ∀ node ∈ Action.bodyNodes actions, node.Named) :
    Block.referencesOf (c.blocks p depth actions).2 =
      c.referencesOf p (Action.bodyNodes actions) := by
  cases actions with
  | nil => rfl
  | cons action actions =>
    rw [Action.bodyNodes, List.forall_mem_append] at h
    rw [Action.bodyNodes, referencesOf_append, ← references_block depth action h.1,
      ← references_blocks depth actions h.2, blocks]
    dsimp only
    rw [Block.referencesOf_append]

end

private theorem references_procedureBlock (procedure : Procedure)
    (h : ∀ node ∈ procedure.nodes, node.Named) :
    (c.procedureBlock p procedure).2.references = c.referencesOf p procedure.nodes := by
  rw [Procedure.nodes, List.forall_mem_cons] at h
  rw [Procedure.nodes, referencesOf_cons, ← c.references_blocks p 1 _ h.2]
  rfl

private theorem references_handlerBlock (event : Event) (h : ∀ node ∈ event.nodes, node.Named) :
    (c.handlerBlock p event).2.references = c.referencesOf p event.nodes := by
  rw [Event.nodes, List.forall_mem_cons] at h
  rw [Event.nodes, referencesOf_cons, ← c.references_blocks p 1 _ h.2]
  rfl

end Catalog

private theorem PlacedBlock.references_column (step top : UInt32) (blocks : List TopBlock) :
    Element.references ((column step top blocks).1.map PlacedBlock.element) =
      blocks.flatMap TopBlock.references := by
  induction blocks generalizing top with
  | nil => rfl
  | cons block blocks ih =>
    rw [column]
    dsimp only
    rw [List.map_cons, references_cons, references_element, ih, List.flatMap_cons]

/-- The nodes of all procedures come before those of all handlers. -/
theorem Script.Program.nodes_eq (p : Program) :
    p.nodes = p.procedures.flatMap Procedure.nodes ++ p.events.flatMap Event.nodes := by
  rw [nodes, forest, roots, roots, List.flatMap_append, List.flatMap_map, List.flatMap_map]
  rfl

namespace Catalog

variable (c : Catalog) (p : Program)

private theorem flatMap_references {α : Type} {make : α → TopBlock} {nodes : α → List Node}
    {items : List α}
    (h : ∀ item ∈ items, (make item).references = c.referencesOf p (nodes item)) :
    (items.map make).flatMap TopBlock.references = c.referencesOf p (items.flatMap nodes) := by
  induction items with
  | nil => rfl
  | cons item items ih =>
    rw [List.forall_mem_cons] at h
    rw [List.map_cons, List.flatMap_cons, h.1, ih h.2, List.flatMap_cons, referencesOf_append]

/-- The blocks of a program speak of what its nodes speak of, in order, if all nodes have their
names. -/
theorem references_canvas (h : ∀ node ∈ p.nodes, node.Named) :
    Element.references [blocksDocument (c.canvas p).2] = c.referencesOf p p.nodes := by
  rw [Program.nodes_eq] at h ⊢
  have hnone : (p.globals.map c.declarationBlock).flatMap TopBlock.references = [] := by
    rw [List.flatMap_map, List.flatMap_eq_nil_iff]
    exact fun _ _ ↦ rfl
  have hprocedures := c.flatMap_references p (fun procedure hp ↦
    c.references_procedureBlock p procedure (fun node hn ↦
      h node (List.mem_append_left _ (List.mem_flatMap_of_mem hp hn))))
  have hevents := c.flatMap_references p (fun event he ↦
    c.references_handlerBlock p event (fun node hn ↦
      h node (List.mem_append_right _ (List.mem_flatMap_of_mem he hn))))
  rw [blocksDocument, references_of_tag (by decide), canvas]
  dsimp only
  rw [List.map_append, List.map_append, references_append, references_append,
    PlacedBlock.references_column, PlacedBlock.references_column, PlacedBlock.references_column,
    List.map_map, List.map_map, hnone, referencesOf_append, ← hprocedures, ← hevents]
  rfl

end Catalog

end Blockwright
