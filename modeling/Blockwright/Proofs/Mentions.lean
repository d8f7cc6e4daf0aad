import Blockwright.Proofs.LineRules
import Blockwright.Proofs.Names
import Blockwright.Proofs.Nesting
import Blockwright.Proofs.References

/-!
# The components that a script names

A program made from a script has exactly the components that its nodes speak of, and none of its
nodes lacks a name. So the blocks of the program speak of its components and of no others, each
with its type.
-/

namespace Blockwright.Script

open Blockwright.Text

/-! ### Lines and the lines before them -/

private theorem exists_line_cons {P : SourceLine → List SourceLine → Prop} {latest : SourceLine}
    {past : List SourceLine} :
    (∃ newer line older, latest :: past = newer ++ line :: older ∧ P line older) ↔
      P latest past ∨ ∃ newer line older, past = newer ++ line :: older ∧ P line older := by
  constructor
  · rintro ⟨newer, line, older, he, hp⟩
    cases newer with
    | nil =>
      obtain ⟨rfl, rfl⟩ := List.cons.inj he
      exact .inl hp
    | cons first newer => exact .inr ⟨newer, line, older, (List.cons.inj he).2, hp⟩
  · rintro (hp | ⟨newer, line, older, rfl, hp⟩)
    · exact ⟨[], latest, past, rfl, hp⟩
    · exact ⟨latest :: newer, line, older, rfl, hp⟩

/-- The lines that make nodes are found among all lines. -/
theorem exists_mem_nodeLines {accepted : SourceLine → Bool} {kind : RootKind}
    {past : List SourceLine} {Q : SourceLine → Prop} :
    (∃ line ∈ nodeLines accepted kind past, Q line) ↔
      ∃ newer line older, past = newer ++ line :: older ∧
        makesNode accepted kind older line ∧ Q line := by
  induction past with
  | nil => simp [nodeLines]
  | cons latest past ih =>
    rw [exists_line_cons, ← ih, nodeLines]
    simp only [List.mem_append, or_and_right, exists_or]
    rw [or_comm]
    apply or_congr_left
    cases makesNode accepted kind past latest <;> simp

namespace Assembly

private theorem components_after_cons (latest : SourceLine) (past : List SourceLine) :
    (after (latest :: past)).program.components =
      (if (Outline.after past).verdict latest = none then latest.component? else none).elim
        (after past).program.components
        (fun name ↦ Ordered.insertName name (after past).program.components) := by
  have hn := congrArg Notes.components ((traces_after past).notes_take latest)
  simp only [Option.isNone_iff_eq_none] at hn
  exact hn

/-- The components are those that some line names, where there is no complaint about the line. -/
theorem mem_components_after {past : List SourceLine} {name : String} :
    name ∈ (after past).program.components ↔ ∃ newer line older, past = newer ++ line :: older ∧
      (Outline.after older).verdict line = none ∧ line.component? = some name := by
  induction past with
  | nil => simp [after, empty, Program.empty]
  | cons latest past ih =>
    rw [exists_line_cons, ← ih, components_after_cons]
    cases (Outline.after past).verdict latest with
    | some message => simp
    | none =>
      cases latest.component? with
      | none => simp
      | some other => simp [Ordered.mem_insertName, eq_comm]

/-- The components stay in order. -/
theorem pairwise_components_after (past : List SourceLine) :
    (after past).program.components.Pairwise (· < ·) := by
  induction past with
  | nil => exact List.Pairwise.nil
  | cons latest past ih =>
    rw [components_after_cons]
    cases (if (Outline.after past).verdict latest = none then latest.component? else none) with
    | none => exact ih
    | some name => exact Ordered.pairwise_insertName name ih

end Assembly

/-! ### What statements speak of -/

namespace Statement

variable {statement : Statement} {node : Node} {name : String}

private theorem ofList_ne_empty {cs : List Char} (h : cs ≠ []) : String.ofList cs ≠ "" := by
  simpa using h

/-- A line has all names that its node needs. -/
theorem named_of_node? {line : String} (hl : read line = some statement)
    (hn : statement.node? = some node) : node.Named := by
  have hcondition {word : String} {closed condition : List Char}
      (h : IsClosed word closed condition) : String.ofList condition ≠ "" := by
    obtain ⟨-, -, -, -, -, -, hne⟩ := h
    exact ofList_ne_empty hne
  cases says_of_read hl with
  | title _ hname | procedure _ hname | declare _ hname | assign _ hname =>
    cases hn
    exact ofList_ne_empty hname.1
  | event _ hcomponent hmember
  | setProperty _ hcomponent hmember
  | bareCall _ hcomponent hmember
  | callMethod _ hcomponent hmember =>
    cases hn
    exact ⟨ofList_ne_empty hcomponent.1, ofList_ne_empty hmember.1⟩
  | callProcedure _ hname =>
    cases hn
    exact ⟨ofList_ne_empty hname.1, ofList_ne_empty hname.1⟩
  | elseIf _ _ hclosed | branch _ hclosed | loop _ hclosed =>
    cases hn
    exact hcondition hclosed
  | forEach _ _ hitem _ hlist =>
    cases hn
    exact ⟨ofList_ne_empty hitem.1, ofList_ne_empty hlist.1⟩
  | otherwise | closing => cases hn

private theorem exists_mention {p : Program} (hc : statement.component? = some name)
    (hp : name ∈ p.components) :
    statement.declared? = none ∧
      ∃ node, statement.node? = some node ∧ p.mention? node = some name := by
  cases statement with
  | event | setProperty =>
    cases hc
    exact ⟨rfl, _, rfl, rfl⟩
  | callMethod component method arguments =>
    cases hc
    exact ⟨rfl, _, rfl, if_neg (fun h ↦ (Program.callsProcedure_call.mp h).2 hp)⟩
  | _ => cases hc

private theorem component?_of_mention {p : Program} (hn : statement.node? = some node)
    (hm : p.mention? node = some name) (hp : name ∉ p.components) :
    statement.component? = some name := by
  cases statement with
  | event | setProperty =>
    cases hn
    exact hm
  | callMethod component method arguments =>
    cases hn
    rw [Program.mention?] at hm
    split at hm
    · cases hm
    · exact hm
  | callProcedure called arguments =>
    cases hn
    rw [Program.mention?] at hm
    split at hm
    · cases hm
    · next h =>
      cases hm
      exact absurd (Program.callsProcedure_call.mpr ⟨rfl, hp⟩) h
  | _ => cases hn <;> cases hm

end Statement

/-- The lines that name a component are headers of handlers, settings of properties and calls of
methods. -/
theorem SourceLine.component?_eq_some_iff {line : SourceLine} {name : String} :
    line.component? = some name ↔
      (∃ event, line.statement? = some (.event name event)) ∨
      (∃ property value, line.statement? = some (.setProperty name property value)) ∨
      ∃ method arguments, line.statement? = some (.callMethod name method arguments) := by
  rw [component?]
  cases line.statement? with
  | none => simp
  | some statement => cases statement <;> simp [Statement.component?]

/-- Whether a node is the header of a handler or procedure. -/
def Node.isRoot : Node → Bool
  | event .. | procedure .. => true
  | _ => false

namespace Action

mutual

private theorem isRoot_of_mem_nodes {node : Node} (action : Action) (h : node ∈ nodes action) :
    node.isRoot = false := by
  cases action with
  | branch condition body otherwise =>
    rw [nodes, List.mem_cons, List.mem_append] at h
    rcases h with rfl | h | h
    · rfl
    · exact isRoot_of_mem_bodyNodes body h
    · exact isRoot_of_mem_bodyNodes otherwise h
  | loop condition body =>
    rw [nodes, List.mem_cons] at h
    rcases h with rfl | h
    · rfl
    · exact isRoot_of_mem_bodyNodes body h
  | forEach item list body =>
    rw [nodes, List.mem_cons] at h
    rcases h with rfl | h
    · rfl
    · exact isRoot_of_mem_bodyNodes body h
  | _ =>
    cases List.mem_singleton.mp h
    rfl

private theorem isRoot_of_mem_bodyNodes {node : Node} (actions : List Action)
    (h : node ∈ bodyNodes actions) : node.isRoot = false := by
  cases actions with
  | nil => cases h
  | cons action actions =>
    rw [bodyNodes, List.mem_append] at h
    rcases h with h | h
    · exact isRoot_of_mem_nodes action h
    · exact isRoot_of_mem_bodyNodes actions h

end

private theorem notMem_bodyNodes {node : Node} (hn : node.isRoot) (actions : List Action) :
    node ∉ bodyNodes actions := by
  intro h
  rw [isRoot_of_mem_bodyNodes actions h] at hn
  cases hn

end Action

/-! ### Whole scripts -/

namespace Program

/-- Closing what is open at the end names no component. -/
theorem components_ofScript (script : String) : (ofScript script).components =
    (Assembly.after (sourceLines script).reverse).program.components :=
  congrArg Notes.components (notes_ofScript script)

variable {script : String}

/-- The components of a script are those that its accepted lines name. -/
theorem mem_components_ofScript {name : String} : name ∈ (ofScript script).components ↔
    ∃ line ∈ sourceLines script,
      (ofScript script).accepts line ∧ line.component? = some name := by
  rw [components_ofScript, Assembly.mem_components_after]
  constructor
  · rintro ⟨newer, line, older, he, hv, hc⟩
    have hline : line ∈ (sourceLines script).reverse := by
      rw [he]
      exact List.mem_append_right _ List.mem_cons_self
    exact ⟨line, List.mem_reverse.mp hline,
      (judges_ofScript script newer line older he).mpr hv, hc⟩
  · rintro ⟨line, hline, ha, hc⟩
    obtain ⟨newer, older, he⟩ := List.append_of_mem (List.mem_reverse.mpr hline)
    exact ⟨newer, line, older, he, (judges_ofScript script newer line older he).mp ha, hc⟩

/-- A script's components are in order, each once. -/
theorem pairwise_components_ofScript (script : String) :
    (ofScript script).components.Pairwise (· < ·) := by
  rw [components_ofScript]
  exact Assembly.pairwise_components_after _

/-- The nodes of a script are those of the lines that make one. -/
theorem mem_nodes_ofScript {node : Node} : node ∈ (ofScript script).nodes ↔
    ∃ kind newer line older, (sourceLines script).reverse = newer ++ line :: older ∧
      makesNode (ofScript script).accepts kind older line ∧ line.node? = some node := by
  have hkind (kind : RootKind) : node ∈ ((ofScript script).roots kind).flatMap Root.nodes ↔
      ∃ newer line older, (sourceLines script).reverse = newer ++ line :: older ∧
        makesNode (ofScript script).accepts kind older line ∧ line.node? = some node := by
    have hnodes := nodes_ofScript script kind
    rw [visits, map_node_rootsVisits] at hnodes
    rw [← exists_mem_nodeLines, ← List.mem_map, ← hnodes]
    simp
  rw [nodes, forest, List.flatMap_append, List.mem_append, hkind, hkind]
  constructor
  · rintro (h | h)
    · exact ⟨.procedure, h⟩
    · exact ⟨.event, h⟩
  · rintro ⟨kind, h⟩
    cases kind with
    | procedure => exact .inl h
    | event => exact .inr h

/-- No node of a script lacks a name. -/
theorem named_of_mem_nodes {node : Node} (h : node ∈ (ofScript script).nodes) : node.Named := by
  obtain ⟨kind, newer, line, older, -, -, hn⟩ := mem_nodes_ofScript.mp h
  obtain ⟨statement, hl, hn⟩ := Option.bind_eq_some_iff.mp hn
  exact Statement.named_of_node? hl hn

/-- An accepted line that stands for a node and declares nothing makes its node. -/
theorem mem_nodes_of_accepts {line : SourceLine} {statement : Statement} {node : Node}
    (hline : line ∈ sourceLines script) (ha : (ofScript script).accepts line)
    (hl : line.statement? = some statement) (hn : statement.node? = some node)
    (hd : statement.declared? = none) : node ∈ (ofScript script).nodes := by
  rw [← SourceLine.node?_of_statement hl] at hn
  rw [← SourceLine.declared?_of_statement hl] at hd
  obtain ⟨newer, older, he⟩ := List.append_of_mem (List.mem_reverse.mpr hline)
  have hj := judges_ofScript script
  rw [he] at hj
  obtain ⟨kind, hk⟩ := Outline.exists_makesNode hj.earlier ha (Option.isSome_of_eq_some hn)
    (.inl hd)
  exact mem_nodes_ofScript.mpr ⟨kind, newer, line, older, he, hk, hn⟩

/-- The components of a script are those that its nodes speak of. -/
theorem mem_components_iff_mention {name : String} : name ∈ (ofScript script).components ↔
    ∃ node ∈ (ofScript script).nodes, (ofScript script).mention? node = some name := by
  constructor
  · intro hname
    obtain ⟨line, hline, ha, hc⟩ := mem_components_ofScript.mp hname
    obtain ⟨statement, hl, hc⟩ := Option.bind_eq_some_iff.mp hc
    obtain ⟨hd, node, hn, hm⟩ := Statement.exists_mention hc hname
    exact ⟨node, mem_nodes_of_accepts hline ha hl hn hd, hm⟩
  · rintro ⟨node, hnode, hm⟩
    by_contra hname
    obtain ⟨kind, newer, line, older, he, hk, hn⟩ := mem_nodes_ofScript.mp hnode
    have hline : line ∈ (sourceLines script).reverse := by
      rw [he]
      exact List.mem_append_right _ List.mem_cons_self
    have ha : (ofScript script).accepts line := by
      simp only [makesNode, Bool.and_eq_true] at hk
      exact hk.1.1.1
    obtain ⟨statement, hl, hn⟩ := Option.bind_eq_some_iff.mp hn
    have hc := Statement.component?_of_mention hn hm hname
    rw [← SourceLine.component?_of_statement hl] at hc
    exact hname (mem_components_ofScript.mpr ⟨line, List.mem_reverse.mp hline, ha, hc⟩)

/-- The headers of handlers among a program's nodes are those of its handlers. -/
theorem event_mem_nodes_iff {p : Program} {component event : String} :
    Node.event component event ∈ p.nodes ↔
      ∃ e ∈ p.events, e.component = component ∧ e.event = event := by
  have hbody (actions : List Action) : Node.event component event ∉ Action.bodyNodes actions :=
    Action.notMem_bodyNodes rfl actions
  simp [nodes_eq, Procedure.nodes, Event.nodes, hbody, eq_comm]

/-- The headers of procedures among a program's nodes are those of its procedures. -/
theorem procedure_mem_nodes_iff {p : Program} {name : String} {parameters : List String} :
    Node.procedure name parameters ∈ p.nodes ↔
      ∃ q ∈ p.procedures, q.name = name ∧ q.parameters = parameters := by
  have hbody (actions : List Action) :
      Node.procedure name parameters ∉ Action.bodyNodes actions :=
    Action.notMem_bodyNodes rfl actions
  simp [nodes_eq, Procedure.nodes, Event.nodes, hbody, eq_comm]

/-- The components of a script are those that accepted headers of handlers, settings of properties
and calls of methods name. -/
theorem mem_components_iff_line {name : String} : name ∈ (ofScript script).components ↔
    ∃ line ∈ sourceLines script, (ofScript script).accepts line ∧
      ((∃ event, line.statement? = some (.event name event)) ∨
      (∃ property value, line.statement? = some (.setProperty name property value)) ∨
      ∃ method arguments, line.statement? = some (.callMethod name method arguments)) := by
  rw [mem_components_ofScript]
  apply exists_congr
  intro line
  rw [SourceLine.component?_eq_some_iff]

/-- The components of a script are exactly what its tree and its dotted calls refer to. They are in
the order of their bytes, each once. They are the components of its handlers, those that some action
at any depth sets a property of or calls a method of another name of, and those that an accepted
line calls a method of their own name of. So each of them is named by an accepted line that is the
header of a handler, sets a property or calls a method; a line that is refused, a call of a
procedure and the header of a procedure name none. -/
theorem components_exact (script : String) :
    ((ofScript script).components.map (fun name ↦ name.toUTF8.data.toList)).Pairwise (· < ·) ∧
    (∀ name, name ∈ (ofScript script).components ↔
      (∃ event ∈ (ofScript script).events, event.component = name) ∨
      (∃ property value, Node.setProperty name property value ∈ (ofScript script).nodes) ∨
      (∃ method arguments, name ≠ method ∧
        Node.call name method arguments ∈ (ofScript script).nodes) ∨
      ∃ line ∈ sourceLines script, (ofScript script).accepts line ∧
        ∃ arguments, line.statement? = some (.callMethod name name arguments)) ∧
    ∀ name, name ∈ (ofScript script).components ↔
      ∃ line ∈ sourceLines script, (ofScript script).accepts line ∧
        ((∃ event, line.statement? = some (.event name event)) ∨
        (∃ property value, line.statement? = some (.setProperty name property value)) ∨
        ∃ method arguments, line.statement? = some (.callMethod name method arguments)) := by
  refine ⟨Ordered.pairwise_toUTF8 (pairwise_components_ofScript script), ?_,
    fun name ↦ mem_components_iff_line⟩
  intro name
  constructor
  · intro hname
    obtain ⟨line, hline, ha, hl⟩ := mem_components_iff_line.mp hname
    rcases hl with ⟨event, hl⟩ | ⟨property, value, hl⟩ | ⟨method, arguments, hl⟩
    · have hnode := mem_nodes_of_accepts hline ha hl rfl rfl
      obtain ⟨e, he, hcomponent, -⟩ := event_mem_nodes_iff.mp hnode
      exact .inl ⟨e, he, hcomponent⟩
    · exact .inr (.inl ⟨property, value, mem_nodes_of_accepts hline ha hl rfl rfl⟩)
    · by_cases hm : name = method
      · subst hm
        exact .inr (.inr (.inr ⟨line, hline, ha, arguments, hl⟩))
      · exact .inr (.inr (.inl
          ⟨method, arguments, hm, mem_nodes_of_accepts hline ha hl rfl rfl⟩))
  · rintro (⟨e, he, rfl⟩ | ⟨property, value, hn⟩ | ⟨method, arguments, hm, hn⟩ |
      ⟨line, hline, ha, arguments, hl⟩)
    · exact mem_components_iff_mention.mpr
        ⟨_, event_mem_nodes_iff.mpr ⟨e, he, rfl, rfl⟩, rfl⟩
    · exact mem_components_iff_mention.mpr ⟨_, hn, rfl⟩
    · have hmethod (h : (ofScript script).callsProcedure (.call name method arguments)) : False :=
        hm (callsProcedure_call.mp h).1
      exact mem_components_iff_mention.mpr ⟨_, hn, if_neg hmethod⟩
    · exact mem_components_iff_line.mpr ⟨line, hline, ha, .inr (.inr ⟨name, arguments, hl⟩)⟩

end Program

end Blockwright.Script

namespace Blockwright

open Script

/-- The blocks of a script speak of its components and of no others, each with its type. -/
theorem Catalog.mem_references_ofScript (c : Catalog) {script name type : String} :
    (name, type) ∈
        Element.references [blocksDocument (c.canvas (Program.ofScript script)).2] ↔
      name ∈ (Program.ofScript script).components ∧ type = (c.typeOf name).name := by
  rw [c.references_canvas _ (fun _ ↦ Program.named_of_mem_nodes), referencesOf, List.mem_map]
  simp only [List.mem_filterMap, ← Program.mem_components_iff_mention]
  constructor
  · rintro ⟨component, hc, he⟩
    cases he
    exact ⟨hc, rfl⟩
  · rintro ⟨hc, rfl⟩
    exact ⟨name, hc, rfl⟩

end Blockwright
