import Blockwright.Proofs.Mentions
import Blockwright.Proofs.Packing

/-!
# A block for every action

The program of a script lacks no name: the rules for lines take no empty names and conditions, and
the component of a handler is one of the program's components. So nothing of it is refused or left
out. Its actions at any depth, without the declarations, are one by one the blocks that stand in the
bodies of its markup.
-/

namespace Blockwright

open Script Markup Element

/-! ### Actions at any depth -/

namespace Script

namespace Action

mutual

/-- The actions inside an action, each before those inside it. -/
def inside : Action → List Action
  | setProperty .. | assign .. | call .. | define .. => []
  | branch _ body otherwise => within body ++ within otherwise
  | loop _ body => within body
  | forEach _ _ body => within body

/-- The actions of a body at any depth, each before those inside it. -/
def within : List Action → List Action
  | [] => []
  | action :: actions => action :: (inside action ++ within actions)

end

mutual

private theorem nodes_subset_of_mem_inside {other : Action} (action : Action)
    (h : other ∈ inside action) :
    other.nodes ⊆ action.nodes := by
  intro node hn
  cases action with
  | branch condition body otherwise =>
    rw [inside, List.mem_append] at h
    rw [nodes, List.mem_cons, List.mem_append]
    rcases h with h | h
    · exact .inr (.inl (nodes_subset_of_mem_within body h hn))
    · exact .inr (.inr (nodes_subset_of_mem_within otherwise h hn))
  | loop condition body =>
    rw [nodes]
    exact List.mem_cons_of_mem _ (nodes_subset_of_mem_within body h hn)
  | forEach item list body =>
    rw [nodes]
    exact List.mem_cons_of_mem _ (nodes_subset_of_mem_within body h hn)
  | _ => cases h

private theorem nodes_subset_of_mem_within {other : Action} (actions : List Action)
    (h : other ∈ within actions) : other.nodes ⊆ bodyNodes actions := by
  intro node hn
  cases actions with
  | nil => cases h
  | cons action actions =>
    rw [within, List.mem_cons, List.mem_append] at h
    rw [bodyNodes, List.mem_append]
    rcases h with rfl | h | h
    · exact .inl hn
    · exact .inl (nodes_subset_of_mem_inside action h hn)
    · exact .inr (nodes_subset_of_mem_within actions h hn)

end

end Action

namespace Program

/-- The bodies of a program: those of its procedures, then those of its handlers. -/
def bodies (p : Program) : List (List Action) :=
  p.procedures.map Procedure.actions ++ p.events.map Event.actions

/-- The actions of a program at any depth. -/
def actions (p : Program) : List Action := p.bodies.flatMap Action.within

/-- If no node of a program lacks a name, no action does. -/
theorem missingName_of_mem_actions {p : Program} (h : ∀ node ∈ p.nodes, node.Named) :
    ∀ action ∈ p.actions, action.missingName = none := by
  intro action ha
  apply Action.missingName_eq_none
  intro node hn
  apply h
  obtain ⟨body, hb, ha⟩ := List.mem_flatMap.mp ha
  have hnode := Action.nodes_subset_of_mem_within body ha hn
  rw [bodies, List.mem_append, List.mem_map, List.mem_map] at hb
  rw [nodes_eq, List.mem_append]
  rcases hb with ⟨procedure, hp, rfl⟩ | ⟨event, he, rfl⟩
  · exact .inl (List.mem_flatMap_of_mem hp (List.mem_cons_of_mem _ hnode))
  · exact .inr (List.mem_flatMap_of_mem he (List.mem_cons_of_mem _ hnode))

/-- The program of a script passes its check. -/
theorem check_ofScript (script : String) : (ofScript script).check = .ok () := by
  rw [check_eq_ok_iff]
  intro event he
  have hnode : Node.event event.component event.event ∈ (ofScript script).nodes :=
    event_mem_nodes_iff.mpr ⟨event, he, rfl, rfl⟩
  obtain ⟨hcomponent, hevent⟩ := named_of_mem_nodes hnode
  exact ⟨hcomponent, hevent, mem_components_iff_mention.mpr ⟨_, hnode, rfl⟩⟩

end Program

end Script

/-! ### Nothing is left out -/

namespace Catalog

variable (c : Catalog) (p : Program)

mutual

private theorem warnings_block (depth : Nat) (action : Action) (hm : action.missingName = none)
    (h : ∀ other ∈ action.inside, other.missingName = none) : (c.block p depth action).1 = [] := by
  rw [block.eq_def, hm]
  cases action with
  | branch condition body otherwise =>
    rw [Action.inside, List.forall_mem_append] at h
    dsimp only
    rw [warnings_blocks (depth + 1) body h.1, warnings_blocks (depth + 1) otherwise h.2]
    rfl
  | loop condition body => exact warnings_blocks (depth + 1) body h
  | forEach item list body => exact warnings_blocks (depth + 1) body h
  | _ => rfl

private theorem warnings_blocks (depth : Nat) (actions : List Action)
    (h : ∀ action ∈ Action.within actions, action.missingName = none) :
    (c.blocks p depth actions).1 = [] := by
  cases actions with
  | nil => rfl
  | cons action actions =>
    rw [Action.within, List.forall_mem_cons, List.forall_mem_append] at h
    rw [blocks]
    dsimp only
    rw [warnings_block depth action h.1 h.2.1, warnings_blocks depth actions h.2.2]
    rfl

end

/-- The reports of a program are those of its bodies, one body after the other. -/
theorem warnings_canvas_eq :
    (c.canvas p).1 = p.bodies.flatMap (fun body ↦ (c.blocks p 1 body).1) := by
  show (p.procedures.map (c.procedureBlock p) ++ p.events.map (c.handlerBlock p)).flatMap
    Prod.fst = _
  rw [Program.bodies, List.flatMap_append, List.flatMap_append, List.flatMap_map, List.flatMap_map,
    List.flatMap_map, List.flatMap_map]
  rfl

/-- A program whose actions lack no name is not reported. -/
theorem warnings_canvas (h : ∀ action ∈ p.actions, action.missingName = none) :
    (c.canvas p).1 = [] := by
  rw [warnings_canvas_eq, List.flatMap_eq_nil_iff]
  intro body hb
  apply warnings_blocks
  intro action ha
  exact h action (List.mem_flatMap_of_mem hb ha)

end Catalog

/-! ### Blocks in bodies -/

namespace Element

/-- The blocks that stand in a body somewhere inside an element: those that a `statement` or a
`next` holds, each before those inside it and those that follow it. -/
def steps (e : Element) : List Element :=
  e.parts.flatMap (fun part ↦
    if part.tag = "statement" ∨ part.tag = "next" then part.children else [])

private theorem steps_node (tag : String) (attributes : List (String × String))
    (children : List Element) :
    (node tag attributes children).steps =
      (if tag = "statement" ∨ tag = "next" then children else []) ++ children.flatMap steps := by
  have hparts (es : List Element) : partsOf es = es.flatMap parts := by
    induction es with
    | nil => rfl
    | cons e es ih => rw [partsOf, ih, List.flatMap_cons]
  rw [steps, parts, List.flatMap_cons, hparts, List.flatMap_assoc]
  rfl

end Element

namespace Markup

variable (name : String)

@[simp] private theorem steps_title (content : String) : (title name content).steps = [] := rfl

@[simp] private theorem steps_block (type : String) (children : List Element) :
    (block type children).steps = children.flatMap steps := steps_node _ _ _

@[simp] private theorem steps_input (e : Element) : (input name e).steps = e.steps := by
  rw [input, steps_node]
  simp

@[simp] private theorem steps_mutation (attributes : List (String × String))
    (children : List Element) :
    (mutation attributes children).steps = children.flatMap steps := steps_node _ _ _

@[simp] private theorem steps_parameter : (parameter name).steps = [] := rfl

private theorem steps_slot {tag : String} (h : tag = "statement" ∨ tag = "next")
    (attributes : List (String × String)) (chain : List Element) :
    (if chain.isEmpty then [] else [node tag attributes chain]).flatMap steps =
      chain ++ chain.flatMap steps := by
  cases chain with
  | nil => rfl
  | cons e es =>
    rw [List.isEmpty_cons, if_neg Bool.false_ne_true, List.flatMap_singleton, steps_node, if_pos h]

@[simp] private theorem steps_statement (chain : List Element) :
    (statement name chain).flatMap steps = chain ++ chain.flatMap steps :=
  steps_slot (.inl rfl) _ _

@[simp] private theorem steps_next (chain : List Element) :
    (next chain).flatMap steps = chain ++ chain.flatMap steps := steps_slot (.inr rfl) _ _

end Markup

@[simp] private theorem Literal.steps_element (literal : Literal) : literal.element.steps = [] := by
  cases literal <;> simp [element]

@[simp] private theorem Literal.steps_inputs (arguments : List Literal) :
    (Literal.inputs arguments).flatMap steps = [] := by
  rw [List.flatMap_eq_nil_iff]
  intro e he
  obtain ⟨i, hi, rfl⟩ := List.mem_mapIdx.mp he
  simp

namespace Block

/-- The blocks that stand in the body of some blocks, at any depth. -/
def held (blocks : List Block) : List Element := chain blocks ++ (chain blocks).flatMap steps

/-- The blocks that stand in the bodies of a block, at any depth. -/
def inner : Block → List Element
  | setProperty .. | setVariable .. | callProcedure .. | callMethod .. => []
  | branch _ body otherwise => held body ++ held otherwise
  | loop _ body => held body
  | forEach _ _ body => held body

private theorem steps_element (rest : List Element) (block : Block) :
    (block.element rest).steps = block.inner ++ rest.flatMap steps := by
  cases block with
  | branch condition body otherwise =>
    cases otherwise <;> simp [element, inner, held, chain]
  | _ => simp [element, inner, held]

/-- A block of a body comes before those inside it and those that follow it. -/
theorem held_cons (block : Block) (blocks : List Block) : held (block :: blocks) =
    block.element (next (chain blocks)) :: (block.inner ++ held blocks) := by
  rw [held, chain, List.flatMap_singleton, steps_element, steps_next]
  rfl

end Block

/-! ### Blocks of programs -/

/-- The blocks in the body of a block that stands on its own. -/
def TopBlock.body : TopBlock → List Block
  | declaration .. => []
  | procedure _ _ body => body
  | handler _ _ _ body => body

namespace PlacedBlock

private theorem steps_element (placed : PlacedBlock) :
    placed.element.steps = Block.held placed.block.body := by
  obtain ⟨top, block⟩ := placed
  rw [element, steps_node]
  cases block <;> simp [TopBlock.content, TopBlock.body, Block.held, Block.chain]

private theorem map_block_column (step top : UInt32) (blocks : List TopBlock) :
    (column step top blocks).1.map PlacedBlock.block = blocks := by
  induction blocks generalizing top with
  | nil => rfl
  | cons block blocks ih => exact congrArg (block :: ·) (ih (top + step))

end PlacedBlock

namespace Script.Program

/-- An action becomes a block that shows the action's shape. -/
def Becomes (p : Program) (action : Action) (e : Element) : Prop :=
  ∃ shape, p.shape? action = some shape ∧ Shows shape e

end Script.Program

namespace Catalog

variable (c : Catalog) (p : Program)

/-- The blocks that stand on their own are the declarations, the procedures and the handlers. -/
theorem map_block_canvas : (c.canvas p).2.map PlacedBlock.block =
    p.globals.map c.declarationBlock ++ p.procedures.map (fun item ↦ (c.procedureBlock p item).2) ++
      p.events.map (fun item ↦ (c.handlerBlock p item).2) := by
  unfold canvas
  dsimp only
  rw [List.map_append, List.map_append, PlacedBlock.map_block_column, PlacedBlock.map_block_column,
    PlacedBlock.map_block_column, List.map_map, List.map_map]
  rfl

/-- The blocks that stand in the bodies of a program's markup are those of its bodies. -/
theorem steps_canvas : (blocksDocument (c.canvas p).2).steps =
    p.bodies.flatMap (fun body ↦ Block.held (c.blocks p 1 body).2) := by
  have hplaced : (blocksDocument (c.canvas p).2).steps =
      ((c.canvas p).2.map PlacedBlock.block).flatMap (fun block ↦ Block.held block.body) := by
    rw [blocksDocument, steps_node, List.flatMap_map, List.flatMap_map]
    simp [PlacedBlock.steps_element]
  have hnone : (p.globals.map c.declarationBlock).flatMap (fun block ↦ Block.held block.body) =
      [] := by
    rw [List.flatMap_map, List.flatMap_eq_nil_iff]
    intro declared _
    rfl
  rw [hplaced, map_block_canvas, List.flatMap_append, List.flatMap_append, hnone,
    List.flatMap_map, List.flatMap_map, Program.bodies, List.flatMap_append, List.flatMap_map,
    List.flatMap_map]
  rfl

/-- An action is lowered to an element: that of the block made from it, with other blocks behind. -/
def Lowers (action : Action) (e : Element) : Prop :=
  ∃ depth block following, (c.block p depth action).2 = some block ∧
    e = block.element (next following)

private theorem isSome_block (depth : Nat) (action : Action) :
    (c.block p depth action).2.isSome = action.survives := by
  rw [← p.isSome_shape?, ← c.shape_block p depth action, Option.isSome_map]

private theorem becomes_of_lowers {action : Action} {e : Element} (h : c.Lowers p action e) :
    p.Becomes action e := by
  obtain ⟨depth, block, following, hb, rfl⟩ := h
  refine ⟨block.shape, ?_, Block.shows_element following block⟩
  rw [← c.shape_block p depth action, hb]
  rfl

mutual

private theorem forall₂_lowers_inner (depth : Nat) (action : Action) {made : Block}
    (hb : (c.block p depth action).2 = some made)
    (h : ∀ other ∈ action.inside, other.missingName = none) :
    List.Forall₂ (c.Lowers p) (action.inside.filter (fun other ↦ other.kind != .define))
      made.inner := by
  rw [block.eq_def] at hb
  split at hb
  · cases hb
  · cases action with
    | branch condition body otherwise =>
      cases hb
      rw [Action.inside, List.forall_mem_append] at h
      rw [Action.inside, List.filter_append]
      exact List.rel_append (forall₂_lowers_held (depth + 1) body h.1)
        (forall₂_lowers_held (depth + 1) otherwise h.2)
    | loop condition body =>
      cases hb
      exact forall₂_lowers_held (depth + 1) body h
    | forEach item list body =>
      cases hb
      exact forall₂_lowers_held (depth + 1) body h
    | call component method arguments =>
      cases hb
      unfold callBlock
      dsimp only
      split <;> exact .nil
    | define target value => cases hb
    | setProperty | assign =>
      cases hb
      exact .nil

private theorem forall₂_lowers_held (depth : Nat) (actions : List Action)
    (h : ∀ action ∈ Action.within actions, action.missingName = none) :
    List.Forall₂ (c.Lowers p) ((Action.within actions).filter (fun action ↦ action.kind != .define))
      (Block.held (c.blocks p depth actions).2) := by
  cases actions with
  | nil => exact .nil
  | cons action actions =>
    rw [Action.within, List.forall_mem_cons, List.forall_mem_append] at h
    rw [Action.within, blocks]
    dsimp only
    have hrest := forall₂_lowers_held depth actions h.2.2
    by_cases hk : action.kind = .define
    · -- a declaration holds nothing and leaves no block
      cases action with
      | define target value =>
        rw [List.filter_cons_of_neg (by simp [hk]), block.eq_def, h.1]
        exact hrest
      | _ => cases hk
    · have hsome : (c.block p depth action).2.isSome := by
        rw [isSome_block]
        exact Action.survives_of_complete h.1 hk
      obtain ⟨made, hb⟩ := Option.isSome_iff_exists.mp hsome
      have hinner := forall₂_lowers_inner depth action hb h.2.1
      rw [hb, Option.toList_some, List.singleton_append, Block.held_cons,
        List.filter_cons_of_pos (by simp [hk]), List.filter_append]
      exact .cons ⟨depth, made, _, hb, rfl⟩ (List.rel_append hinner hrest)

end

/-- If no action lacks a name, all but the declarations are lowered to one block each, in order. -/
theorem forall₂_lowers (h : ∀ action ∈ p.actions, action.missingName = none) :
    List.Forall₂ (c.Lowers p) (p.actions.filter (fun action ↦ action.kind != .define))
      (blocksDocument (c.canvas p).2).steps := by
  rw [steps_canvas, Program.actions, List.filter_flatMap]
  apply List.rel_flatMap (R := fun body other ↦ List.Forall₂ (c.Lowers p)
    ((Action.within body).filter (fun action ↦ action.kind != .define))
    (Block.held (c.blocks p 1 other).2))
  · rw [List.forall₂_same]
    intro body hb
    apply c.forall₂_lowers_held p 1
    intro action ha
    exact h action (List.mem_flatMap_of_mem hb ha)
  · intro body other hpaired
    exact hpaired

/-- If no action lacks a name, all but the declarations become one block each, in order. -/
theorem forall₂_becomes (h : ∀ action ∈ p.actions, action.missingName = none) :
    List.Forall₂ p.Becomes (p.actions.filter (fun action ↦ action.kind != .define))
      (blocksDocument (c.canvas p).2).steps :=
  (c.forall₂_lowers p h).imp (fun _ _ ↦ c.becomes_of_lowers p)

end Catalog

/-! ### Scripts -/

/-- Whatever a script says, its program is lowered whole. Its check passes, none of its actions
lacks a name, nothing of it is reported, and its actions become one block each, but for the
declarations. With extensions that bring no payloads along, its project is made without a report and
written into every table. -/
theorem Generator.write_ofScript {σ : Type} (g : Generator σ) (script : String)
    (extensions : List Extension) (files : String → Except FileFault ByteArray)
    (h : ∀ extension ∈ extensions, extension.payload = none) (s : σ) (table : EntryTable) :
    let p := Program.ofScript script
    let c := Catalog.ofExtensions g.config extensions
    p.check = .ok () ∧
    (∀ action ∈ p.actions, action.missingName = none) ∧
    (c.canvas p).1 = [] ∧
    List.Forall₂ p.Becomes (p.actions.filter (fun action ↦ action.kind != .define))
      (blocksDocument (c.canvas p).2).steps ∧
    ∃ project, (g.make ⟨p, extensions, files⟩ s).1 = .ok project ∧ project.warnings = [] ∧
      g.write ⟨p, extensions, files⟩ EntryTable.sink (s, table) =
        (.ok (), (g.make ⟨p, extensions, files⟩ s).2,
          project.entries.foldl EntryTable.add table) := by
  intro p c
  have hcomplete : ∀ action ∈ p.actions, action.missingName = none :=
    Program.missingName_of_mem_actions (fun _ ↦ Program.named_of_mem_nodes)
  let job : Job := ⟨p, extensions, files⟩
  have hcheck : job.program.check = .ok () := Program.check_ofScript script
  have hpayloads : Extension.payloads job.extensions = [] := by
    rw [Extension.payloads, List.filterMap_eq_nil_iff]
    exact h
  have hread : ∀ payload ∈ Extension.payloads job.extensions, ∃ content,
      payload.content job.files = .ok content := by
    rw [hpayloads]
    exact List.forall_mem_nil _
  obtain ⟨project, payloads, hmake, hwarnings, -, -⟩ := g.exists_make s hcheck hread
  refine ⟨hcheck, hcomplete, c.warnings_canvas p hcomplete,
    c.forall₂_becomes p hcomplete, project, hmake, ?_, g.write_table s hmake table⟩
  rw [hwarnings]
  exact c.warnings_canvas p hcomplete

/-- A declaration inside a conditional leaves no block, nor does a line that is not understood. -/
theorem Generator.write_ofScript_alternatives :
    let g : Generator UInt64 := ⟨.builtIn, .counting⟩
    let p := Program.ofScript
      "when A.B\n  if x then\n    define y as 1\n  else\n    oops\n    call C.D\n"
    let extensions : List Extension :=
      [{ name := "Clock", version := "1", uuid := "com.extension.clock" }]
    (∀ extension ∈ extensions, extension.payload = none) ∧
      (blocksDocument ((Catalog.ofExtensions g.config extensions).canvas p).2).steps.length = 2 ∧
      (g.write ⟨p, extensions, fun _ ↦ .error .missing⟩ EntryTable.sink (7, [])).1 = .ok () := by
  intro g p extensions
  have h : ∀ extension ∈ extensions, extension.payload = none :=
    List.forall_mem_cons.mpr ⟨rfl, List.forall_mem_nil _⟩
  have hlength : (p.actions.filter (fun action ↦ action.kind != .define)).length = 2 := by
    decide +kernel
  obtain ⟨-, -, -, hbecomes, project, -, -, hwrite⟩ :=
    g.write_ofScript _ extensions (fun _ ↦ .error .missing) h 7 []
  refine ⟨h, hbecomes.length_eq.symm.trans hlength, ?_⟩
  rw [hwrite]

end Blockwright
