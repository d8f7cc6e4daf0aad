import Blockwright.Block.Markup
import Blockwright.Proofs.Shape
import Mathlib.Data.List.Forall2

/-!
# Blocks keep the trees of actions

The blocks of a program show the trees of its actions, without the actions that lack a name and
without declarations. First the blocks have the shapes of the actions they come from; then the
markup of blocks shows their shapes, and no others.
-/

namespace Blockwright

open Script Markup Element

/-! ### Shapes of actions and blocks -/

/-- Whether an action leaves a block: it is no declaration and lacks no name. -/
def Script.Action.survives (action : Action) : Bool :=
  action.kind != .define && action.missingName.isNone

private theorem Script.Action.survives_of_missing {action : Action} {field : String}
    (h : action.missingName = some field) : action.survives = false := by
  rw [survives, h]
  exact Bool.and_false _

/-- Any other action but a declaration leaves one. -/
theorem Script.Action.survives_of_complete {action : Action} (h : action.missingName = none)
    (hk : action.kind ≠ .define) : action.survives := by
  rw [survives, h]
  simpa using hk

namespace Script.Program

mutual

/-- The shape of an action that leaves a block, with the shapes of those inside it that do. -/
def shape? (p : Program) (action : Action) : Option Shape :=
  if action.survives then
    match action with
    | .define .. => none
    | .setProperty component property _ => some (.setProperty component property)
    | .assign target _ => some (.assign target)
    | .call component method arguments =>
      if p.callsProcedure (.call component method arguments) then some (.callProcedure component)
      else some (.callMethod component method)
    | .branch _ body otherwise => some (.branch (shapes p body) (shapes p otherwise))
    | .loop _ body => some (.loop (shapes p body))
    | .forEach item list body => some (.forEach item list (shapes p body))
  else none

/-- The shapes of the actions of a body that leave a block, in order. -/
def shapes (p : Program) : List Action → List Shape
  | [] => []
  | action :: actions => (shape? p action).toList ++ shapes p actions

end

/-- The actions that have a shape are those that survive. -/
theorem isSome_shape? (p : Program) (action : Action) :
    (p.shape? action).isSome = action.survives := by
  rw [shape?.eq_def]
  cases h : action.survives with
  | false => rfl
  | true =>
    cases action with
    | define target value => cases h
    | call component method arguments =>
      rw [if_pos rfl]
      dsimp only
      split <;> rfl
    | _ => rfl

end Script.Program

namespace Block

mutual

/-- The shape of a block. -/
def shape : Block → Shape
  | setProperty _ component property _ => .setProperty component property
  | setVariable target _ => .assign target
  | callProcedure name _ _ => .callProcedure name
  | callMethod _ component method _ => .callMethod component method
  | branch _ body otherwise => .branch (shapes body) (shapes otherwise)
  | loop _ body => .loop (shapes body)
  | forEach item list body => .forEach item list (shapes body)

/-- The shapes of some blocks. -/
def shapes : List Block → List Shape
  | [] => []
  | block :: blocks => shape block :: shapes blocks

end

private theorem shapes_append (blocks others : List Block) :
    shapes (blocks ++ others) = shapes blocks ++ shapes others := by
  induction blocks with
  | nil => rfl
  | cons block blocks ih => rw [List.cons_append, shapes, ih, shapes, List.cons_append]

end Block

namespace Catalog

variable (c : Catalog) (p : Program)

private theorem shape_callBlock (component method : String) (arguments : List String) :
    some (c.callBlock p component method arguments).shape =
      if p.callsProcedure (.call component method arguments) then some (.callProcedure component)
      else some (.callMethod component method) := by
  unfold callBlock
  dsimp only
  split <;> rfl

mutual

/-- A block has the shape of the action it comes from. -/
theorem shape_block (depth : Nat) (action : Action) :
    (c.block p depth action).2.map Block.shape = p.shape? action := by
  rw [block.eq_def, Program.shape?.eq_def]
  cases hm : action.missingName with
  | some field =>
    rw [Action.survives_of_missing hm]
    rfl
  | none =>
    by_cases hk : action.kind = .define
    · cases action with
      | define target value => rfl
      | _ => cases hk
    · rw [if_pos (Action.survives_of_complete hm hk)]
      cases action with
      | define target value => exact absurd rfl hk
      | setProperty component property value => rfl
      | assign target value => rfl
      | call component method arguments => exact shape_callBlock c p component method arguments
      | branch condition body otherwise =>
        dsimp only
        rw [← shapes_blocks (depth + 1) body, ← shapes_blocks (depth + 1) otherwise]
        rfl
      | loop condition body =>
        dsimp only
        rw [← shapes_blocks (depth + 1) body]
        rfl
      | forEach item list body =>
        dsimp only
        rw [← shapes_blocks (depth + 1) body]
        rfl

private theorem shapes_blocks (depth : Nat) (actions : List Action) :
    Block.shapes (c.blocks p depth actions).2 = p.shapes actions := by
  cases actions with
  | nil => rfl
  | cons action actions =>
    rw [blocks, Program.shapes, ← shape_block depth action, ← shapes_blocks depth actions]
    dsimp only
    rw [Block.shapes_append]
    cases (c.block p depth action).2 <;> rfl

end

end Catalog

/-! ### Parts of the markup of blocks -/

section parts

variable (name : String) (chain : List Element)

private theorem filter_isNext_next : (next chain).filter isNext = next chain := by
  unfold next
  split <;> rfl

private theorem filter_isNamed_next : (next chain).filter (isNamed "statement" name) = [] := by
  unfold next
  split <;> rfl

private theorem find?_isMutation_next : (next chain).find? isMutation = none := by
  unfold next
  split <;> rfl

private theorem filter_isNext_statement : (statement name chain).filter isNext = [] := by
  unfold statement
  split <;> rfl

private theorem filter_isNamed_statement :
    (statement name chain).filter (isNamed "statement" name) = statement name chain := by
  unfold statement
  split <;> simp [isNamed, tag, attribute?]

private theorem filter_isNamed_statement_of_ne {other : String} (h : name ≠ other) :
    (statement name chain).filter (isNamed "statement" other) = [] := by
  unfold statement
  split
  · rfl
  · simp [isNamed, tag, attribute?, h]

private theorem statements_node {elementTag : String} {attributes : List (String × String)}
    {own behind : List Element} (ho : own.filter (isNamed "statement" name) = [])
    (hb : behind.filter (isNamed "statement" name) = []) :
    (Element.node elementTag attributes (own ++ statement name chain ++ behind)).statements name =
      statement name chain := by
  rw [statements, Element.children, List.filter_append, List.filter_append, ho, hb,
    filter_isNamed_statement, List.nil_append, List.append_nil]

private theorem find?_isMutation_statement : (statement name chain).find? isMutation = none := by
  unfold statement
  split <;> rfl

private theorem filter_isNext_inputs (arguments : List Literal) :
    (Literal.inputs arguments).filter isNext = [] := by
  rw [List.filter_eq_nil_iff]
  intro e hm
  obtain ⟨i, h, rfl⟩ := List.mem_mapIdx.mp hm
  simp [isNext, input, tag]

end parts

namespace Block

private theorem children_element (block : Block) :
    ∃ own, ∀ rest, (block.element rest).children = own ++ rest := by
  cases block <;> exact ⟨_, fun _ ↦ rfl⟩

private theorem nexts_element (following : List Element) (block : Block) :
    (block.element (next following)).nexts = next following := by
  cases block with
  | branch condition body otherwise =>
    cases otherwise <;>
      simp [element, nexts, Element.children, Markup.block, mutation, input, isNext, tag,
        filter_isNext_next, filter_isNext_statement]
  | _ =>
    simp [element, nexts, Element.children, Markup.block, mutation, title, input, isNext, tag,
      filter_isNext_next, filter_isNext_inputs, filter_isNext_statement]

private theorem mutation?_branch (following : List Element) (condition : Literal)
    (body otherwise : List Block) :
    ((branch condition body otherwise).element (next following)).mutation? "else" =
      if (shapes otherwise).isEmpty then none else some "1" := by
  cases otherwise with
  | nil =>
    have hi : List.find? isMutation [input "IF0" condition.element] = none := rfl
    show Option.bind (List.find? isMutation ([] ++ [input "IF0" condition.element] ++
      statement "DO0" (chain body) ++ statement "ELSE" (chain []) ++ next following)) _ = none
    rw [List.find?_append, List.find?_append, List.find?_append, List.nil_append, hi,
      find?_isMutation_statement, find?_isMutation_statement, find?_isMutation_next]
    rfl
  | cons block otherwise => rfl

private theorem holds_of_follows {name : String} {e : Element} {blocks : List Block}
    (hf : ∀ first, chain blocks = [first] → Follows (shapes blocks) first)
    (h : e.statements name = statement name (chain blocks)) : Holds name (shapes blocks) e := by
  cases blocks with
  | nil => exact .absent h
  | cons block blocks => exact .present h (hf _ rfl)

mutual

/-- The element of a block shows the block's shape. -/
theorem shows_element (following : List Element) (block : Block) :
    Shows block.shape (block.element (next following)) := by
  cases block with
  | setProperty type component property value => exact .setProperty rfl rfl rfl rfl
  | setVariable target value => exact .assign rfl rfl
  | callProcedure name slots arguments => exact .callProcedure rfl rfl rfl
  | callMethod type component method arguments => exact .callMethod rfl rfl rfl rfl
  | branch condition body otherwise =>
    refine .branch rfl (holds_of_follows (follows_chain body) ?_)
      (holds_of_follows (follows_chain otherwise) ?_)
      (mutation?_branch following condition body otherwise)
    · rw [element, Markup.block, List.append_assoc _ _ (next following)]
      refine statements_node _ _ ?_ ?_
      · cases otherwise <;> rfl
      · rw [List.filter_append, filter_isNamed_statement_of_ne _ _ (by decide),
          filter_isNamed_next]
        rfl
    · rw [element, Markup.block]
      refine statements_node _ _ ?_ (filter_isNamed_next _ _)
      rw [List.filter_append, filter_isNamed_statement_of_ne _ _ (by decide), List.append_nil]
      cases otherwise <;> rfl
  | loop condition body =>
    exact .loop rfl (holds_of_follows (follows_chain body)
      (statements_node _ _ rfl (filter_isNamed_next _ _)))
  | forEach item list body =>
    exact .forEach rfl rfl rfl (holds_of_follows (follows_chain body)
      (statements_node _ _ rfl (filter_isNamed_next _ _)))

private theorem follows_chain (blocks : List Block) (first : Element) (h : chain blocks = [first]) :
    Follows (shapes blocks) first := by
  cases blocks with
  | nil => cases h
  | cons block blocks =>
    cases h
    have hshows := shows_element (chain blocks) block
    have hnexts := nexts_element (chain blocks) block
    have hfollows := follows_chain blocks
    obtain ⟨own, hown⟩ := children_element block
    cases blocks with
    | nil => exact .last hshows hnexts
    | cons following blocks =>
      refine .link hshows hnexts ?_ (hfollows _ rfl)
      rw [hown]
      exact List.getLast?_concat

end

end Block

/-! ### Blocks that stand on their own -/

/-- The element of a procedure shows its name, and in its body the shapes of its actions and no
others. -/
structure Script.Program.Defines (p : Program) (procedure : Procedure) (e : Element) : Prop where
  blockType?_eq : e.blockType? = some "procedures_defnoreturn"
  title?_eq : e.title? "NAME" = some procedure.name
  holds_iff : ∀ shapes, Holds "STACK" shapes e ↔ shapes = p.shapes procedure.actions

/-- The element of a handler shows its component and event, and in its body the shapes of its
actions and no others. -/
structure Script.Program.Handles (p : Program) (event : Event) (e : Element) : Prop where
  blockType?_eq : e.blockType? = some "component_event"
  title?_eq : e.title? "COMPONENT_SELECTOR" = some event.component
  instance_eq : e.mutation? "instance_name" = some event.component
  event_eq : e.mutation? "event_name" = some event.event
  holds_iff : ∀ shapes, Holds "DO" shapes e ↔ shapes = p.shapes event.actions

private theorem Holds.iff_eq {name : String} {shapes : List Shape} {e : Element}
    (h : Holds name shapes e) (others : List Shape) : Holds name others e ↔ others = shapes :=
  ⟨fun ho ↦ ho.unique h, fun he ↦ he ▸ h⟩

namespace Catalog

variable (c : Catalog) (p : Program)

private theorem holds_blocks {name : String} {elementTag : String}
    {attributes : List (String × String)} {own : List Element} (depth : Nat)
    (actions : List Action) (ho : own.filter (isNamed "statement" name) = []) :
    Holds name (p.shapes actions) (.node elementTag attributes
      (own ++ statement name (Block.chain (c.blocks p depth actions).2))) := by
  rw [← shapes_blocks c p depth actions]
  refine Block.holds_of_follows (Block.follows_chain _) ?_
  rw [← List.append_nil (own ++ _)]
  exact statements_node _ _ ho rfl

/-- The element of a procedure's block, wherever it is placed. -/
theorem defines_procedureBlock (procedure : Procedure) (top : UInt32) :
    p.Defines procedure (PlacedBlock.element ⟨top, (c.procedureBlock p procedure).2⟩) where
  blockType?_eq := rfl
  title?_eq := rfl
  holds_iff := (c.holds_blocks p 1 procedure.actions rfl).iff_eq

/-- The element of a handler's block, wherever it is placed. -/
theorem handles_handlerBlock (event : Event) (top : UInt32) :
    p.Handles event (PlacedBlock.element ⟨top, (c.handlerBlock p event).2⟩) where
  blockType?_eq := rfl
  title?_eq := rfl
  instance_eq := rfl
  event_eq := rfl
  holds_iff := (c.holds_blocks p 1 event.actions rfl).iff_eq

end Catalog

/-- Blocks in a column have the elements of their blocks, in order. -/
theorem PlacedBlock.forall₂_column {α : Type} {R : α → Element → Prop} (make : α → TopBlock)
    (h : ∀ item top, R item (PlacedBlock.element ⟨top, make item⟩)) (step top : UInt32)
    (items : List α) :
    List.Forall₂ R items ((column step top (items.map make)).1.map PlacedBlock.element) := by
  induction items generalizing top with
  | nil => exact .nil
  | cons item items ih => exact .cons (h item top) (ih (top + step))

/-- Lowering keeps the trees of actions. Behind the declarations come the elements of all procedures
and then of all handlers, in order, and each of them shows in its body exactly the shapes of its
surviving actions. -/
theorem canvas_keeps_trees (c : Catalog) (p : Program) :
    (∀ action, (p.shape? action).isSome = action.survives) ∧
    ∃ declarations definitions handlers,
      (blocksDocument (c.canvas p).2).children = declarations ++ definitions ++ handlers ∧
      declarations.length = p.globals.length ∧
      List.Forall₂ p.Defines p.procedures definitions ∧
      List.Forall₂ p.Handles p.events handlers := by
  have hdeclares := PlacedBlock.forall₂_column (R := fun _ _ ↦ True) c.declarationBlock
    (fun _ _ ↦ trivial) PlacedBlock.declarationStep PlacedBlock.firstTop p.globals
  have hdefines := PlacedBlock.forall₂_column (fun procedure ↦ (c.procedureBlock p procedure).2)
    (c.defines_procedureBlock p) PlacedBlock.blockStep
  have hhandles := PlacedBlock.forall₂_column (fun event ↦ (c.handlerBlock p event).2)
    (c.handles_handlerBlock p) PlacedBlock.blockStep
  refine ⟨p.isSome_shape?, ?_⟩
  unfold Catalog.canvas
  dsimp only
  rw [List.map_map, List.map_map, blocksDocument, Element.children, List.map_append,
    List.map_append]
  exact ⟨_, _, _, rfl, hdeclares.length_eq.symm, hdefines _ _, hhandles _ _⟩

end Blockwright
