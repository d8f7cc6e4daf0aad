import Blockwright.Proofs.Steps

/-!
# What calls are lowered to

Every accepted line that stands for an action or a control structure has one block, which is found
at the line's place among the blocks in bodies. A dotted call names its component, so the program
has the component and the block calls a method of it. A call with its arguments in parentheses
names none, and its block calls a procedure unless some other line names a component like it.
-/

namespace Blockwright

open Script Markup Element

namespace Script

/-! ### Nodes and actions -/

/-- Whether a node leaves a block in a body: it is neither a header nor a declaration. -/
def Node.isStep : Node → Bool
  | event .. | procedure .. | define .. => false
  | _ => true

namespace Action

/-- The node of an action, without the nodes inside it. -/
def node : Action → Node
  | setProperty component property value => .setProperty component property value
  | assign target value => .assign target value
  | call component method arguments => .call component method arguments
  | define target value => .define target value
  | branch condition _ _ => .branch condition
  | loop condition _ => .loop condition
  | forEach item list _ => .forEach item list

private theorem isStep_node (action : Action) : action.node.isStep = (action.kind != .define) := by
  cases action <;> rfl

mutual

private theorem nodes_eq_cons (action : Action) :
    nodes action = action.node :: (inside action).map node := by
  cases action with
  | branch condition body otherwise =>
    rw [nodes, inside, List.map_append, bodyNodes_eq_map body, bodyNodes_eq_map otherwise]
    rfl
  | loop condition body =>
    rw [nodes, inside, bodyNodes_eq_map body]
    rfl
  | forEach item list body =>
    rw [nodes, inside, bodyNodes_eq_map body]
    rfl
  | _ => rfl

private theorem bodyNodes_eq_map (actions : List Action) :
    bodyNodes actions = (within actions).map node := by
  cases actions with
  | nil => rfl
  | cons action actions =>
    rw [bodyNodes, within, List.map_cons, List.map_append, nodes_eq_cons action,
      bodyNodes_eq_map actions]
    rfl

end

private theorem filter_isStep_bodyNodes (actions : List Action) :
    (bodyNodes actions).filter Node.isStep =
      ((within actions).filter (fun action ↦ action.kind != .define)).map node := by
  rw [bodyNodes_eq_map, List.filter_map]
  congr 2
  funext action
  exact isStep_node action

end Action

private theorem Program.filter_isStep_nodes (p : Program) : p.nodes.filter Node.isStep =
    (p.actions.filter (fun action ↦ action.kind != .define)).map Action.node := by
  have hprocedure (procedure : Procedure) : procedure.nodes.filter Node.isStep =
      ((Action.within procedure.actions).filter (fun action ↦ action.kind != .define)).map
        Action.node := Action.filter_isStep_bodyNodes procedure.actions
  have hevent (event : Event) : event.nodes.filter Node.isStep =
      ((Action.within event.actions).filter (fun action ↦ action.kind != .define)).map
        Action.node := Action.filter_isStep_bodyNodes event.actions
  simp only [nodes_eq, actions, bodies, List.filter_append, List.filter_flatMap, hprocedure, hevent,
    List.flatMap_append, List.flatMap_map, List.map_append, List.map_flatMap]

/-! ### Lines and blocks -/

/-- Whether a line leaves a block in a body where it is accepted. -/
def SourceLine.isStep (line : SourceLine) : Bool := line.node?.any Node.isStep

/-- The lines that leave blocks in bodies, in the order of those blocks: first the lines of
procedures, then those of handlers. -/
def stepLines (script : String) : List SourceLine :=
  let accepted := (Program.ofScript script).accepts
  let past := (sourceLines script).reverse
  (nodeLines accepted .procedure past ++ nodeLines accepted .event past).filter SourceLine.isStep

private theorem map_node?_stepLines (script : String) : (stepLines script).map SourceLine.node? =
    ((Program.ofScript script).actions.filter (fun action ↦ action.kind != .define)).map
      (fun action ↦ some action.node) := by
  let p := Program.ofScript script
  let past := (sourceLines script).reverse
  have hkind (kind : RootKind) : ((p.roots kind).flatMap Root.nodes).map some =
      (nodeLines p.accepts kind past).map SourceLine.node? := by
    rw [← map_node_rootsVisits 0]
    exact nodes_ofScript script kind
  have hnodes : p.nodes.map some =
      (nodeLines p.accepts .procedure past ++ nodeLines p.accepts .event past).map
        SourceLine.node? := by
    rw [Program.nodes, Program.forest, List.flatMap_append, List.map_append, List.map_append,
      hkind, hkind]
  have hsteps := congrArg (List.filter (Option.any Node.isStep)) hnodes
  rw [List.filter_map, List.filter_map] at hsteps
  calc (stepLines script).map SourceLine.node?
    _ = (p.nodes.filter Node.isStep).map some := hsteps.symm
    _ = _ := by rw [p.filter_isStep_nodes, List.map_map]; rfl

private theorem SourceLine.declared?_of_isStep {line : SourceLine} (h : line.isStep) :
    line.declared? = none := by
  cases hl : line.statement? with
  | none => simp [declared?, hl]
  | some statement =>
    rw [declared?_of_statement hl]
    rw [isStep, node?_of_statement hl] at h
    cases statement with
    | declare name value => cases h
    | _ => rfl

private theorem mem_stepLines {script : String} {line : SourceLine}
    (hline : line ∈ sourceLines script) (ha : (Program.ofScript script).accepts line)
    (hs : line.isStep) : line ∈ stepLines script := by
  obtain ⟨newer, older, he⟩ := List.append_of_mem (List.mem_reverse.mpr hline)
  have hj := judges_ofScript script
  rw [he] at hj
  have hn : line.node?.isSome := by
    rw [SourceLine.isStep, Option.any_eq_true] at hs
    obtain ⟨node, hn, -⟩ := hs
    rw [hn]
    rfl
  obtain ⟨kind, hk⟩ := Outline.exists_makesNode hj.earlier ha hn
    (.inl (SourceLine.declared?_of_isStep hs))
  obtain ⟨other, hmem, rfl⟩ := exists_mem_nodeLines.mpr ⟨newer, line, older, he, hk, rfl⟩
  apply List.mem_filter.mpr ⟨List.mem_append.mpr ?_, hs⟩
  cases kind with
  | procedure => exact .inl hmem
  | event => exact .inr hmem

end Script

/-- The block that a line is lowered to: among the blocks in bodies it stands where the line stands
among the lines that leave blocks. -/
def Catalog.blockOf? (c : Catalog) (script : String) (line : SourceLine) : Option Element :=
  ((stepLines script).zip (blocksDocument (c.canvas (Program.ofScript script)).2).steps).lookup line

private theorem exists_lookup_zip {α β : Type} [BEq α] [LawfulBEq α] {R : α → β → Prop}
    {xs : List α} {ys : List β} (h : List.Forall₂ R xs ys) {x : α} (hx : x ∈ xs) :
    ∃ y, (xs.zip ys).lookup x = some y ∧ R x y := by
  induction h with
  | nil => cases hx
  | @cons first partner xs ys hr _ ih =>
    by_cases he : x = first
    · subst he
      exact ⟨partner, by simp, hr⟩
    · obtain ⟨y, hy, hr⟩ := ih ((List.mem_cons.mp hx).resolve_left he)
      refine ⟨y, ?_, hr⟩
      rw [List.zip_cons_cons, List.lookup_cons, beq_false_of_ne he]
      exact hy

namespace Catalog

variable (c : Catalog) {script : String} {line : SourceLine}

/-- An accepted line for an action or a control structure is lowered to the block of an action that
says the same. -/
theorem exists_blockOf? (hline : line ∈ sourceLines script)
    (ha : (Program.ofScript script).accepts line) (hs : line.isStep) :
    ∃ action e, line.node? = some action.node ∧ c.blockOf? script line = some e ∧
      c.Lowers (Program.ofScript script) action e := by
  have hcomplete := Program.missingName_of_mem_actions (p := Program.ofScript script)
    (fun _ ↦ Program.named_of_mem_nodes)
  have hpaired : List.Forall₂ (fun line e ↦ ∃ action, line.node? = some (Action.node action) ∧
      c.Lowers (Program.ofScript script) action e) (stepLines script)
      (blocksDocument (c.canvas (Program.ofScript script)).2).steps := by
    rw [← List.forall₂_map_left_iff (R := fun node? e ↦ ∃ action,
      node? = some (Action.node action) ∧ c.Lowers (Program.ofScript script) action e),
      map_node?_stepLines, List.forall₂_map_left_iff]
    apply (c.forall₂_lowers _ hcomplete).imp
    intro action e hlowers
    exact ⟨action, rfl, hlowers⟩
  obtain ⟨e, he, action, hn, hlowers⟩ := exists_lookup_zip hpaired (mem_stepLines hline ha hs)
  exact ⟨action, e, hn, he, hlowers⟩

end Catalog

/-! ### Calls -/

/-- The inputs of a block in order, each with its name and what it holds. -/
def Element.inputs (e : Element) : List (Option String × List Element) :=
  (e.children.filter (fun child ↦ child.tag == "value")).map
    (fun input ↦ (input.attribute? "name", input.children))

namespace Catalog

variable (c : Catalog) (p : Program) {component method : String} {arguments : List String}
  {e : Element}

/-- The inputs that a call with some arguments has to have: one for each, in order, numbered from
zero. -/
def argumentInputs (arguments : List String) : List (Option String × List Element) :=
  arguments.mapIdx (fun i argument ↦
    (some ("ARG" ++ toString i), [(Literal.ofText c.config argument).element]))

private theorem inputs_block (type : String) {own : List Element}
    (ho : own.filter (fun child ↦ child.tag == "value") = []) (arguments following) :
    (Markup.block type (own ++ Literal.inputs arguments ++ next following)).inputs =
      arguments.mapIdx (fun i argument ↦ (some ("ARG" ++ toString i), [argument.element])) := by
  have hinputs : (Literal.inputs arguments).filter (fun child ↦ child.tag == "value") =
      Literal.inputs arguments := by
    rw [List.filter_eq_self]
    intro child hc
    obtain ⟨i, hi, rfl⟩ := List.mem_mapIdx.mp hc
    rfl
  have hnext : (next following).filter (fun child ↦ child.tag == "value") = [] := by
    unfold next
    split <;> rfl
  rw [Element.inputs, Markup.block, children, List.filter_append, List.filter_append, ho, hinputs,
    hnext, List.nil_append, List.append_nil, Literal.inputs]
  apply List.ext_getElem?
  intro i
  rw [List.getElem?_map, List.getElem?_mapIdx, List.getElem?_mapIdx, Option.map_map]
  rfl

/-- A call has one input for each of its arguments. -/
theorem inputs_callBlock (component method : String) (arguments : List String)
    (following : List Element) :
    ((c.callBlock p component method arguments).element (next following)).inputs =
      c.argumentInputs arguments := by
  have hvalues : (arguments.map (Literal.ofText c.config)).mapIdx (fun i argument ↦
      (some ("ARG" ++ toString i), [argument.element])) = c.argumentInputs arguments := by
    apply List.ext_getElem?
    intro i
    rw [argumentInputs, List.getElem?_mapIdx, List.getElem?_mapIdx, List.getElem?_map,
      Option.map_map]
    rfl
  rw [← hvalues]
  unfold callBlock
  dsimp only
  split
  · exact inputs_block _ rfl _ _
  · exact inputs_block _ rfl _ _

/-- A line for a call is lowered to the block of the call. -/
theorem blockOf?_of_call {script : String} {line : SourceLine} (hline : line ∈ sourceLines script)
    (ha : (Program.ofScript script).accepts line)
    (hn : line.node? = some (.call component method arguments)) : ∃ following,
      c.blockOf? script line = some ((c.callBlock (Program.ofScript script) component method
        arguments).element (next following)) := by
  have hs : line.isStep := by rw [SourceLine.isStep, hn]; rfl
  obtain ⟨action, e, hnode, he, depth, made, following, hb, rfl⟩ := c.exists_blockOf? hline ha hs
  rw [hn] at hnode
  cases action with
  | call =>
    cases hnode
    rw [block.eq_def] at hb
    split at hb
    · cases hb
    · cases hb
      exact ⟨following, he⟩
  | _ => cases hnode

/-- A call of a method is lowered to a call of the method, if the component is one of the program's
or the method has another name. -/
theorem shows_callMethod (h : component ∈ p.components ∨ component ≠ method)
    (following : List Element) :
    Shows (.callMethod component method)
        ((c.callBlock p component method arguments).element (next following)) ∧
      ((c.callBlock p component method arguments).element (next following)).mutation?
        "component_type" = some (c.typeOf component).name := by
  have hcall : ¬ p.callsProcedure (.call component method arguments) := by
    rw [Program.callsProcedure_call]
    rintro ⟨he, hc⟩
    exact h.elim hc (· he)
  rw [callBlock, if_neg hcall]
  exact ⟨.callMethod rfl rfl rfl rfl, rfl⟩

/-- A call that names one thing as both component and method is lowered to a call of a procedure
exactly when the program has no component of that name. -/
theorem shows_callProcedure_iff (name : String) (following : List Element) :
    Shows (.callProcedure name)
        ((c.callBlock p name name arguments).element (next following)) ↔ name ∉ p.components := by
  constructor
  · intro hshows hname
    have hmethod : Shows (.callMethod name name)
        ((c.callBlock p name name arguments).element (next following)) :=
      (c.shows_callMethod p (.inl hname) following).1
    cases hshows.unique hmethod
  · intro hname
    rw [callBlock, if_pos (Program.callsProcedure_call.mpr ⟨rfl, hname⟩)]
    exact .callProcedure rfl rfl rfl

/-- A procedure that a line declares has a definition among the blocks. -/
theorem exists_definition {script : String} {header : SourceLine} {name : String}
    {parameters : List String} (hheader : header ∈ sourceLines script)
    (ha : (Program.ofScript script).accepts header)
    (hl : header.statement? = some (.procedure name parameters)) :
    ∃ e ∈ (blocksDocument (c.canvas (Program.ofScript script)).2).children,
      e.blockType? = some "procedures_defnoreturn" ∧ e.title? "NAME" = some name := by
  have hnode := Program.mem_nodes_of_accepts hheader ha hl rfl rfl
  obtain ⟨procedure, hp, rfl, -⟩ := Program.procedure_mem_nodes_iff.mp hnode
  have hblock : (c.procedureBlock (Program.ofScript script) procedure).2 ∈
      (c.canvas (Program.ofScript script)).2.map PlacedBlock.block := by
    rw [map_block_canvas]
    apply List.mem_append_left
    apply List.mem_append_right
    exact List.mem_map_of_mem hp
  obtain ⟨⟨top, block⟩, hplaced, rfl⟩ := List.mem_map.mp hblock
  have hdefines := c.defines_procedureBlock (Program.ofScript script) procedure top
  exact ⟨_, List.mem_map_of_mem hplaced, hdefines.blockType?_eq, hdefines.title?_eq⟩

/-- Where no line is refused, a call of a procedure that the script declares is lowered to a call of
that procedure, which has a definition among the blocks, unless some line names a component of the
procedure's name. In that case it is lowered to a call of a method of the component. -/
theorem blockOf?_declared {script : String} (hd : (Program.ofScript script).diagnostics = [])
    {line header : SourceLine} {name : String} {arguments parameters : List String}
    (hline : line ∈ sourceLines script)
    (hl : line.statement? = some (.callProcedure name arguments))
    (hheader : header ∈ sourceLines script)
    (hh : header.statement? = some (.procedure name parameters)) :
    ∃ e, c.blockOf? script line = some e ∧
      ((∀ other ∈ sourceLines script, other.component? ≠ some name) →
        Shows (.callProcedure name) e) ∧
      ((∃ other ∈ sourceLines script, other.component? = some name) →
        Shows (.callMethod name name) e) ∧
      ∃ definition ∈ (blocksDocument (c.canvas (Program.ofScript script)).2).children,
        definition.blockType? = some "procedures_defnoreturn" ∧
          definition.title? "NAME" = some name := by
  have ha (other : SourceLine) : (Program.ofScript script).accepts other := by
    rw [Program.accepts, hd]
    rfl
  obtain ⟨following, he⟩ := c.blockOf?_of_call hline (ha line) (SourceLine.node?_of_statement hl)
  refine ⟨_, he, ?_, ?_, c.exists_definition hheader (ha header) hh⟩
  · intro hnone
    rw [shows_callProcedure_iff, Program.mem_components_ofScript]
    rintro ⟨other, ho, -, hc⟩
    exact hnone other ho hc
  · rintro ⟨other, ho, hc⟩
    have hname : name ∈ (Program.ofScript script).components :=
      Program.mem_components_ofScript.mpr ⟨other, ho, ha other, hc⟩
    exact (c.shows_callMethod _ (.inl hname) following).1

/-- A procedure that is called in the handler of a component of another name. -/
theorem blockOf?_declared_elsewhere :
    let script := "define p(a)\n  set x to a\nwhen A.p\n  if x then\n    call p(1, 2)\n"
    let line : SourceLine := ⟨5, 4, "call p(1, 2)"⟩
    let c := Catalog.ofExtensions .builtIn []
    ((Program.ofScript script).diagnostics = [] ∧ line ∈ sourceLines script ∧
      line.statement? = some (.callProcedure "p" ["1", "2"])) ∧
      ∃ e, c.blockOf? script line = some e ∧ Shows (.callProcedure "p") e := by
  intro script line c
  have hs : sourceLines script = [⟨1, 0, "define p(a)"⟩, ⟨2, 2, "set x to a"⟩,
      ⟨3, 0, "when A.p"⟩, ⟨4, 2, "if x then"⟩, line] := by decide +kernel
  have hd : (Program.ofScript script).diagnostics = [] := by
    rw [Program.diagnostics_ofScript, hs]
    decide +kernel
  have hline : line ∈ sourceLines script := by simp [hs]
  have hl : line.statement? = some (.callProcedure "p" ["1", "2"]) := by decide +kernel
  have hheader : ⟨1, 0, "define p(a)"⟩ ∈ sourceLines script := by simp [hs]
  have hh : SourceLine.statement? ⟨1, 0, "define p(a)"⟩ = some (.procedure "p" ["a"]) := by
    decide +kernel
  obtain ⟨e, he, hshows, -⟩ := c.blockOf?_declared hd hline hl hheader hh
  refine ⟨⟨hd, hline, hl⟩, e, he, hshows ?_⟩
  rw [hs]
  decide +kernel

/-- A procedure of the same name as a component is not called: the only call of the declared
procedure is lowered to a call of a method of the component. -/
theorem blockOf?_declared_namesake :
    let script := "define Clock1\n  set x to 1\nwhen Clock1.Timer\n  call Clock1()\n"
    let line : SourceLine := ⟨4, 2, "call Clock1()"⟩
    let header : SourceLine := ⟨1, 0, "define Clock1"⟩
    let c := Catalog.ofExtensions .builtIn []
    ((Program.ofScript script).diagnostics = [] ∧ line ∈ sourceLines script ∧
      line.statement? = some (.callProcedure "Clock1" []) ∧ header ∈ sourceLines script ∧
      header.statement? = some (.procedure "Clock1" [])) ∧
      ∃ e, c.blockOf? script line = some e ∧ e.blockType? = some "component_method" ∧
        ¬ Shows (.callProcedure "Clock1") e := by
  intro script line header c
  have hs : sourceLines script = [header, ⟨2, 2, "set x to 1"⟩, ⟨3, 0, "when Clock1.Timer"⟩,
      line] := by decide +kernel
  have hd : (Program.ofScript script).diagnostics = [] := by
    rw [Program.diagnostics_ofScript, hs]
    decide +kernel
  have hline : line ∈ sourceLines script := by simp [hs]
  have hl : line.statement? = some (.callProcedure "Clock1" []) := by decide +kernel
  have hheader : header ∈ sourceLines script := by simp [hs]
  have hh : header.statement? = some (.procedure "Clock1" []) := by decide +kernel
  have hname : "Clock1" ∈ (Program.ofScript script).components := by
    rw [Program.components_ofScript, hs]
    decide +kernel
  have ha : (Program.ofScript script).accepts line := by
    rw [Program.accepts, hd]
    rfl
  obtain ⟨following, he⟩ := c.blockOf?_of_call hline ha (SourceLine.node?_of_statement hl)
  have hmethod : Shows (.callMethod "Clock1" "Clock1") ((c.callBlock (Program.ofScript script)
      "Clock1" "Clock1" []).element (next following)) :=
    (c.shows_callMethod _ (.inl hname) following).1
  refine ⟨⟨hd, hline, hl, hheader, hh⟩, _, he, ?_, ?_⟩
  · cases hmethod
    assumption
  · rw [shows_callProcedure_iff]
    exact fun hnone ↦ hnone hname

end Catalog

end Blockwright
