import Blockwright.Proofs.Names
import Blockwright.Proofs.Notes
import Blockwright.Proofs.Phrases

/-!
# Canonical scripts

A program is written with its variables first, then its procedures and then its handlers, one
phrase a line, and every body is indented by four more columns than what holds it. Reading such a
script gives the program back, whatever its trees look like, as long as every phrase can be read
and the program lists the components it names and nothing else besides its trees and variables.
-/

namespace Blockwright.Script

open Blockwright.Script.Action

/-! ### Rows -/

/-- A phrase with the number of blocks around it. -/
structure Row where
  level : Nat
  statement : Statement

namespace Row

/-- A row as text: four spaces for every block around it, and the phrase. -/
def text (row : Row) : String :=
  String.ofList (List.replicate (4 * row.level) ' ') ++ row.statement.phrase

/-- A row as a line with a number. -/
def line (row : Row) (number : Nat) : SourceLine :=
  ⟨number, 4 * row.level, row.statement.phrase⟩

end Row

/-- The text of some rows, each on a line of its own. -/
def rowsText (rows : List Row) : String := String.join (rows.map (fun row ↦ row.text ++ "\n"))

/-- Rows as lines that are numbered from `number` on. -/
def rowLines : Nat → List Row → List SourceLine
  | _, [] => []
  | number, row :: rows => row.line number :: rowLines (number + 1) rows

private theorem rowLines_append (number : Nat) (rows others : List Row) :
    rowLines number (rows ++ others) =
      rowLines number rows ++ rowLines (number + rows.length) others := by
  induction rows generalizing number with
  | nil => rfl
  | cons row rows ih =>
    rw [List.cons_append, rowLines, rowLines, ih, List.cons_append, List.length_cons,
      Nat.add_assoc, Nat.add_comm 1]

/-- Rows that can be read back are found line by line in their text. -/
theorem sourceLines_rowsText {rows : List Row} (h : ∀ row ∈ rows, row.statement.Expressible) :
    sourceLines (rowsText rows) = rowLines 1 rows := by
  have htext : (rowsText rows).toList = textOf (rows.map (fun row ↦ row.text.toList)) := by
    simp [rowsText, textOf, List.flatMap_map]
  have hraw : rawLines (rowsText rows).toList = rows.map (fun row ↦ row.text.toList) := by
    rw [htext]
    apply rawLines_textOf
    intro line hm
    obtain ⟨row, hr, rfl⟩ := List.mem_map.mp hm
    rw [Row.text, String.toList_append, String.toList_ofList]
    exact Statement.phrase_isLine (h row hr) _
  have hlines (number : Nat) :
      sourceLinesFrom number (rows.map (fun row ↦ row.text.toList)) = rowLines number rows := by
    clear htext hraw
    induction rows generalizing number with
    | nil => rfl
    | cons row rows ih =>
      rw [List.map_cons, sourceLinesFrom, Row.text, String.toList_append, String.toList_ofList,
        Statement.ofRaw_phrase (h row List.mem_cons_self),
        ih (fun other ho ↦ h other (List.mem_cons_of_mem _ ho))]
      rfl
  rw [sourceLines, hraw, hlines]

/-- The components that rows name, in order. -/
def named (rows : List Row) : List String := rows.filterMap (fun row ↦ row.statement.component?)

private theorem named_append (rows others : List Row) :
    named (rows ++ others) = named rows ++ named others := List.filterMap_append

/-- A program with some more components. -/
def Program.naming (p : Program) (names : List String) : Program :=
  { p with components := Ordered.insertNames p.components names }

private theorem Program.naming_naming (p : Program) (names more : List String) :
    (p.naming names).naming more = p.naming (names ++ more) := by
  rw [naming, naming, naming, Ordered.insertNames, Ordered.insertNames, Ordered.insertNames,
    List.foldl_append]

/-! ### Programs as rows -/

/-- How a node is written. A call that names one thing as component and method is that of a
procedure. -/
def Node.statement : Node → Statement
  | event component occurrence => .event component occurrence
  | procedure name parameters => .procedure name parameters
  | setProperty component property value => .setProperty component property value
  | assign target value => .assign target value
  | call component method arguments =>
    if component = method then .callProcedure method arguments
    else .callMethod component method arguments
  | define target value => .declare target value
  | branch condition => .branch condition
  | loop condition => .loop condition
  | forEach item list => .forEach item list

/-- Whether a node is a declaration inside a body. -/
def Node.isDefine : Node → Bool
  | define .. => true
  | _ => false

/-- Whether a node can be written and read back. A declaration inside a body also makes a variable,
so its row says more than the node. -/
def Node.Expressible (node : Node) : Prop :=
  node.isDefine = false ∧ node.statement.Expressible

instance (node : Node) : Decidable node.Expressible := inferInstanceAs (Decidable (_ ∧ _))

private theorem Node.statement_ne_otherwise (node : Node) : node.statement ≠ .otherwise := by
  cases node with
  | call component method arguments =>
    rw [statement]
    split <;> exact Statement.noConfusion
  | _ => exact Statement.noConfusion

namespace Action

mutual

/-- The rows of an action inside some blocks. -/
def rows (level : Nat) : Action → List Row
  | setProperty component property value =>
    [⟨level, (Node.setProperty component property value).statement⟩]
  | assign target value => [⟨level, (Node.assign target value).statement⟩]
  | call component method arguments => [⟨level, (Node.call component method arguments).statement⟩]
  | define target value => [⟨level, (Node.define target value).statement⟩]
  | branch condition body otherwise =>
    ⟨level, .branch condition⟩ :: (bodyRows (level + 1) body ++
      if otherwise.isEmpty then [] else ⟨level, .otherwise⟩ :: bodyRows (level + 1) otherwise)
  | loop condition body => ⟨level, .loop condition⟩ :: bodyRows (level + 1) body
  | forEach item list body => ⟨level, .forEach item list⟩ :: bodyRows (level + 1) body

/-- The rows of the actions of a body inside some blocks. -/
def bodyRows (level : Nat) : List Action → List Row
  | [] => []
  | action :: actions => rows level action ++ bodyRows level actions

end

end Action

/-- The rows of a handler or procedure. -/
def Root.rows : Root → List Row
  | event e => ⟨0, .event e.component e.event⟩ :: bodyRows 1 e.actions
  | procedure q => ⟨0, .procedure q.name q.parameters⟩ :: bodyRows 1 q.actions

/-- The row of a variable. -/
def Variable.row (v : Variable) : Row := ⟨0, .declare v.name v.value⟩

namespace Program

/-- The rows of a program: its variables, its procedures and its handlers. -/
def rows (p : Program) : List Row := p.globals.map Variable.row ++ p.forest.flatMap Root.rows

/-- The canonical script of a program. -/
def script (p : Program) : String := rowsText p.rows

/-- Whether a program is what its canonical script says: every variable and node can be read back,
the components are those that handlers and actions name, in ascending order, and there is no
complaint. -/
structure Expressible (p : Program) : Prop where
  globals_expressible : ∀ v ∈ p.globals, (Statement.declare v.name v.value).Expressible
  nodes_expressible : ∀ node ∈ p.nodes, node.Expressible
  components_sorted : p.components.Pairwise (· < ·)
  mem_components : ∀ name, name ∈ p.components ↔
    ∃ node ∈ p.nodes, node.statement.component? = some name
  diagnostics_eq : p.diagnostics = []

end Program

/-! ### Rows say the nodes -/

/-- What rows say, apart from where the last arms of conditionals begin. -/
def sayings (rows : List Row) : List Statement :=
  (rows.map Row.statement).filter (fun s ↦ s ≠ .otherwise)

private theorem sayings_append (rows others : List Row) :
    sayings (rows ++ others) = sayings rows ++ sayings others := by
  rw [sayings, List.map_append, List.filter_append]
  rfl

private theorem sayings_cons {row : Row} (h : row.statement ≠ .otherwise) (rows : List Row) :
    sayings (row :: rows) = row.statement :: sayings rows := by
  rw [sayings, List.map_cons, List.filter_cons_of_pos (by simpa using h)]
  rfl

namespace Action

mutual

private theorem sayings_rows (level : Nat) (action : Action) :
    sayings (rows level action) = (nodes action).map Node.statement := by
  cases action with
  | setProperty component property value => rfl
  | assign target value => rfl
  | call component method arguments =>
    exact sayings_cons (Node.statement_ne_otherwise (.call component method arguments)) []
  | define target value => rfl
  | branch condition body otherwise =>
    have helse : sayings (if otherwise.isEmpty then []
        else ⟨level, .otherwise⟩ :: bodyRows (level + 1) otherwise) =
          (bodyNodes otherwise).map Node.statement := by
      cases otherwise with
      | nil => rfl
      | cons action actions => exact sayings_bodyRows (level + 1) (action :: actions)
    rw [rows, sayings_cons Statement.noConfusion, sayings_append, sayings_bodyRows, helse, nodes,
      List.map_cons, List.map_append]
    rfl
  | loop condition body =>
    rw [rows, sayings_cons Statement.noConfusion, sayings_bodyRows, nodes, List.map_cons]
    rfl
  | forEach item list body =>
    rw [rows, sayings_cons Statement.noConfusion, sayings_bodyRows, nodes, List.map_cons]
    rfl

private theorem sayings_bodyRows (level : Nat) (actions : List Action) :
    sayings (bodyRows level actions) = (bodyNodes actions).map Node.statement := by
  cases actions with
  | nil => rfl
  | cons action actions =>
    rw [bodyRows, sayings_append, sayings_rows, sayings_bodyRows, bodyNodes, List.map_append]

end

end Action

/-- The rows of roots say their nodes. -/
theorem sayings_flatMap_rows (roots : List Root) :
    sayings (roots.flatMap Root.rows) = (roots.flatMap Root.nodes).map Node.statement := by
  induction roots with
  | nil => rfl
  | cons root roots ih =>
    have hroot : sayings root.rows = root.nodes.map Node.statement := by
      cases root with
      | event e =>
        rw [Root.rows, sayings_cons Statement.noConfusion, sayings_bodyRows]
        rfl
      | procedure q =>
        rw [Root.rows, sayings_cons Statement.noConfusion, sayings_bodyRows]
        rfl
    rw [List.flatMap_cons, List.flatMap_cons, sayings_append, hroot, ih, List.map_append]

/-- Every row can be read back if what rows say can be read back. -/
theorem expressible_of_sayings {rows : List Row} (h : ∀ s ∈ sayings rows, s.Expressible) :
    ∀ row ∈ rows, row.statement.Expressible := by
  intro row hr
  by_cases ho : row.statement = .otherwise
  · rw [ho]
    trivial
  · exact h _ (by simpa [sayings, ho] using ⟨row, hr, rfl⟩)

/-- The components that rows name are those in what the rows say. -/
theorem named_eq (rows : List Row) :
    named rows = (sayings rows).filterMap Statement.component? := by
  induction rows with
  | nil => rfl
  | cons row rows ih =>
    by_cases ho : row.statement = .otherwise
    · simp [named, sayings, ho, Statement.component?] at ih ⊢
      exact ih
    · rw [sayings_cons ho, List.filterMap_cons, ← ih]
      rfl

/-! ### Lines fall into blocks -/

/-- Closing by a weaker test closes what a stronger one has left. -/
theorem Scope.closeWhile_closeWhile {first second : Frame → Bool}
    (h : ∀ frame, first frame → second frame) (carried : Option Action) (scope : Scope) :
    closeWhile second carried scope =
      ((closeWhile first carried scope).1 ++
          (closeWhile second none (closeWhile first carried scope).2).1,
        (closeWhile second none (closeWhile first carried scope).2).2) := by
  induction scope generalizing carried with
  | nil => rfl
  | cons frame scope ih =>
    by_cases hf : first (carried.elim frame frame.add)
    · rw [closeWhile.eq_2 second, closeWhile.eq_2 first]
      simp only [hf, h _ hf, if_true]
      split
      · next root hr => rw [ih none]; rfl
      · next action ha => rw [ih (some action)]
    · have hstop : closeWhile first carried (frame :: scope) =
          ([], carried.elim frame frame.add :: scope) := by
        rw [closeWhile]
        simp [hf]
      rw [hstop, List.nil_append]
      rw [closeWhile, closeWhile]
      rfl

namespace Assembly

private theorem closeBy_closeBy {first second : Nat → Bool} (h : ∀ n, first n → second n)
    (a : Assembly) : (a.closeBy first).closeBy second = a.closeBy second := by
  rw [closeBy, closeBy, closeBy,
    Scope.closeWhile_closeWhile (fun frame ↦ h frame.indent) none a.scope]
  simp only [settle, List.foldl_append]

/-- Lines inside `level` blocks fall into `frame`, which lies in `outer`, with `p` put together so
far. -/
structure FallsInto (a : Assembly) (level : Nat) (frame : Frame) (outer : Scope) (p : Program) :
    Prop where
  closeTo_eq : a.closeTo (4 * level) = ⟨frame :: outer, p⟩
  indent_lt : frame.indent < 4 * level

section falling

variable {a : Assembly} {level : Nat} {frame inner : Frame} {outer : Scope} {p : Program}

private theorem fallsInto_of_lt (h : frame.indent < 4 * level) :
    FallsInto ⟨frame :: outer, p⟩ level frame outer p := by
  have hn : ¬ 4 * level ≤ frame.indent := Nat.not_le.mpr h
  refine ⟨?_, h⟩
  simp [closeTo, Scope.closeTo, Scope.closeWhile, settle, hn]

private theorem FallsInto.perform (h : a.FallsInto level frame outer p) {line : SourceLine}
    (hl : line.indent = 4 * level) (component : Option String) (action : Action) :
    (a.perform line component action).FallsInto level (frame.add action) outer
      (p.naming component.toList) := by
  rw [Assembly.perform, hl, h.closeTo_eq]
  cases component with
  | none => exact fallsInto_of_lt h.indent_lt
  | some name => exact fallsInto_of_lt h.indent_lt

private theorem FallsInto.openControl (h : a.FallsInto level frame outer p) (line : SourceLine)
    (hl : line.indent = 4 * level) (header : Header) :
    (a.openControl line header).FallsInto (level + 1) (.opened (4 * level) header)
      (frame :: outer) p := by
  rw [Assembly.openControl, hl, h.closeTo_eq]
  exact fallsInto_of_lt (by show 4 * level < _; omega)

private theorem FallsInto.closeBy_eq (h : a.FallsInto level frame outer p) {test : Nat → Bool}
    (ht : ∀ n, 4 * level ≤ n → test n) : a.closeBy test = closeBy test ⟨frame :: outer, p⟩ := by
  rw [← h.closeTo_eq, Assembly.closeTo_eq, closeBy_closeBy]
  intro n hn
  exact ht n (of_decide_eq_true hn)

private theorem FallsInto.close (h : a.FallsInto (level + 1) inner (frame :: outer) p)
    (hi : inner.indent = 4 * level) (hf : frame.indent < 4 * level) {action : Action}
    (hc : inner.close = .action action) : a.FallsInto level (frame.add action) outer p := by
  have hn : ¬ 4 * level ≤ (frame.add action).indent := Nat.not_le.mpr hf
  refine ⟨?_, hf⟩
  rw [Assembly.closeTo_eq, h.closeBy_eq (by simp only [decide_eq_true_eq]; omega)]
  simp [closeBy, Scope.closeWhile, settle, hi, hc, hn]

private theorem FallsInto.otherwise {condition : String} {body : List Action}
    (h : a.FallsInto (level + 1) ⟨4 * level, .branch condition [] false, body⟩ outer p)
    (line : SourceLine) (hl : line.indent = 4 * level) :
    (a.takeStatement line .otherwise).FallsInto (level + 1)
      ⟨4 * level, .branch "" [(condition, body)] true, []⟩ outer p := by
  have hclose : a.closeDeeper (4 * level) =
      ⟨⟨4 * level, .branch condition [] false, body⟩ :: outer, p⟩ := by
    show a.closeBy (fun n ↦ 4 * level < n) = _
    rw [h.closeBy_eq (by simp only [decide_eq_true_eq]; omega)]
    simp [closeBy, Scope.closeWhile, settle]
  rw [takeStatement, hl, hclose]
  simp only [Scope.otherwise, Scope.modify, Frame.startArm, if_true, Option.map_some, withScope,
    List.nil_append]
  exact fallsInto_of_lt (by show 4 * level < _; omega)

end falling

/-- Takes rows that are numbered from `number` on. -/
def takeRows (a : Assembly) (number : Nat) (rows : List Row) : Assembly :=
  (rowLines number rows).foldl take a

/-- Rows behind others are taken after them. -/
theorem takeRows_append (a : Assembly) (number : Nat) (rows others : List Row) :
    a.takeRows number (rows ++ others) =
      (a.takeRows number rows).takeRows (number + rows.length) others := by
  rw [takeRows, rowLines_append, List.foldl_append]
  rfl

private theorem takeRows_cons (a : Assembly) (number : Nat) {row : Row}
    (h : row.statement.Expressible) (rows : List Row) : a.takeRows number (row :: rows) =
      (a.takeStatement (row.line number) row.statement).takeRows (number + 1) rows := by
  have htake : a.take (row.line number) = a.takeStatement (row.line number) row.statement := by
    rw [take, Row.line, Statement.read_phrase h]
  rw [takeRows, rowLines, List.foldl_cons, htake]
  rfl

mutual

private theorem FallsInto.rows {a : Assembly} {level : Nat} {frame : Frame} {outer : Scope}
    {p : Program} (h : a.FallsInto level frame outer p) (number : Nat) (action : Action)
    (hx : ∀ row ∈ rows level action, row.statement.Expressible)
    (hd : ∀ target value, Node.define target value ∉ nodes action) :
    (a.takeRows number (rows level action)).FallsInto level (frame.add action) outer
      (p.naming (named (rows level action))) := by
  cases action with
  | setProperty component property value =>
    rw [Action.rows] at hx ⊢
    rw [takeRows_cons _ _ (hx _ List.mem_cons_self)]
    exact h.perform rfl _ _
  | assign target value =>
    rw [Action.rows] at hx ⊢
    rw [takeRows_cons _ _ (hx _ List.mem_cons_self)]
    exact h.perform rfl _ _
  | call component method arguments =>
    rw [Action.rows] at hx ⊢
    rw [takeRows_cons _ _ (hx _ List.mem_cons_self), Node.statement]
    by_cases hm : component = method
    · rw [if_pos hm, hm]
      exact h.perform rfl _ _
    · rw [if_neg hm]
      exact h.perform rfl _ _
  | define target value => exact absurd List.mem_cons_self (hd target value)
  | branch condition body otherwise =>
    rw [Action.rows] at hx ⊢
    simp only [nodes, List.mem_cons, List.mem_append, not_or] at hd
    have hopen := h.openControl (Row.line ⟨level, .branch condition⟩ number) rfl
      (.branch condition [] false)
    have hbody := hopen.bodyRows (number + 1) body
      (fun row hr ↦ hx row (List.mem_cons_of_mem _ (List.mem_append_left _ hr)))
      (fun target value ↦ (hd target value).2.1)
    rw [takeRows_cons _ _ (hx _ List.mem_cons_self)]
    cases otherwise with
    | nil =>
      rw [List.isEmpty_nil, if_pos rfl, List.append_nil]
      exact hbody.close rfl h.indent_lt rfl
    | cons action actions =>
      rw [List.isEmpty_cons, if_neg Bool.false_ne_true] at hx ⊢
      have hturn := hbody.otherwise (Row.line ⟨level, .otherwise⟩
        (number + 1 + (Action.bodyRows (level + 1) body).length)) rfl
      have helse := hturn.bodyRows (number + 1 + (Action.bodyRows (level + 1) body).length + 1)
        (action :: actions) (fun row hr ↦ hx row (by simp [hr]))
        (fun target value ↦ (hd target value).2.2)
      have hclose := helse.close rfl h.indent_lt rfl
      -- The rows that open the two arms name no component.
      have hnamed (rows others : List Row) :
          named (⟨level, .branch condition⟩ :: (rows ++ ⟨level, .otherwise⟩ :: others)) =
            named rows ++ named others := by
        rw [← named_append]
        simp [named, Statement.component?]
      rw [takeRows_append, @takeRows_cons _ _ ⟨level, .otherwise⟩ trivial, hnamed,
        ← Program.naming_naming]
      exact hclose
  | loop condition body =>
    rw [Action.rows] at hx ⊢
    simp only [nodes, List.mem_cons, not_or] at hd
    have hopen := h.openControl (Row.line ⟨level, .loop condition⟩ number) rfl
      (.loop condition)
    have hbody := hopen.bodyRows (number + 1) body
      (fun row hr ↦ hx row (List.mem_cons_of_mem _ hr)) (fun target value ↦ (hd target value).2)
    rw [takeRows_cons _ _ (hx _ List.mem_cons_self)]
    exact hbody.close rfl h.indent_lt rfl
  | forEach item list body =>
    rw [Action.rows] at hx ⊢
    simp only [nodes, List.mem_cons, not_or] at hd
    have hopen := h.openControl (Row.line ⟨level, .forEach item list⟩ number) rfl
      (.forEach item list)
    have hbody := hopen.bodyRows (number + 1) body
      (fun row hr ↦ hx row (List.mem_cons_of_mem _ hr)) (fun target value ↦ (hd target value).2)
    rw [takeRows_cons _ _ (hx _ List.mem_cons_self)]
    exact hbody.close rfl h.indent_lt rfl

private theorem FallsInto.bodyRows {a : Assembly} {level : Nat} {frame : Frame} {outer : Scope}
    {p : Program} (h : a.FallsInto level frame outer p) (number : Nat) (actions : List Action)
    (hx : ∀ row ∈ bodyRows level actions, row.statement.Expressible)
    (hd : ∀ target value, Node.define target value ∉ bodyNodes actions) :
    (a.takeRows number (bodyRows level actions)).FallsInto level
      { frame with actions := frame.actions ++ actions } outer
      (p.naming (named (bodyRows level actions))) := by
  cases actions with
  | nil =>
    rw [List.append_nil]
    exact h
  | cons action actions =>
    rw [Action.bodyRows] at hx ⊢
    simp only [bodyNodes, List.mem_append, not_or] at hd
    have hfirst := h.rows number action (fun row hr ↦ hx row (List.mem_append_left _ hr))
      (fun target value ↦ (hd target value).1)
    have hrest := hfirst.bodyRows (number + (Action.rows level action).length) actions
      (fun row hr ↦ hx row (List.mem_append_right _ hr))
      (fun target value ↦ (hd target value).2)
    rw [Program.naming_naming, ← named_append, Frame.add] at hrest
    rw [takeRows_append]
    simpa using hrest

end

private theorem store_naming (p : Program) (root : Root) (names : List String) :
    store (p.naming names) root = (store p root).naming names := by
  cases root <;> rfl

private theorem foldl_store_naming (p : Program) (roots : List Root) (names : List String) :
    roots.foldl store (p.naming names) = (roots.foldl store p).naming names := by
  induction roots generalizing p with
  | nil => rfl
  | cons root roots ih => rw [List.foldl_cons, List.foldl_cons, store_naming, ih]

section roots

variable {a : Assembly} {p : Program}

private theorem FallsInto.closeAll_eq {frame : Frame} (h : a.FallsInto 1 frame [] p) {root : Root}
    (hc : frame.close = .root root) : a.closeAll = ⟨[], store p root⟩ := by
  rw [Assembly.closeAll_eq, h.closeBy_eq (fun _ _ ↦ rfl)]
  simp [closeBy, Scope.closeWhile, settle, hc]

private theorem openRoot_eq (h : a.closeAll = ⟨[], p⟩) {line : SourceLine} (hl : line.indent = 0)
    {header : Header} (hr : header.isRoot) :
    a.openRoot line header = ⟨[.opened 0 header], p⟩ := by
  have hh : (Frame.opened 0 header).header.isRoot = true := hr
  rw [openRoot, hl, h]
  simp [Scope.push, hh, withScope]

private theorem closeAll_bodyRows {header : Header} {actions : List Action} {root : Root}
    (hc : Frame.close ⟨0, header, actions⟩ = .root root) (number : Nat)
    (hx : ∀ row ∈ bodyRows 1 actions, row.statement.Expressible)
    (hd : ∀ target value, Node.define target value ∉ bodyNodes actions) :
    (takeRows ⟨[.opened 0 header], p⟩ number (bodyRows 1 actions)).closeAll =
      ⟨[], (store p root).naming (named (bodyRows 1 actions))⟩ := by
  have hopen : FallsInto ⟨[.opened 0 header], p⟩ 1 (.opened 0 header) [] p :=
    fallsInto_of_lt (Nat.zero_lt_succ 3)
  rw [(hopen.bodyRows number actions hx hd).closeAll_eq hc, store_naming]

private theorem closeAll_takeRows (h : a.closeAll = ⟨[], p⟩) (number : Nat) (root : Root)
    (hx : ∀ row ∈ root.rows, row.statement.Expressible)
    (hd : ∀ target value, Node.define target value ∉ root.nodes) :
    (a.takeRows number root.rows).closeAll = ⟨[], (store p root).naming (named root.rows)⟩ := by
  cases root with
  | event e =>
    have hopen : a.takeStatement (Row.line ⟨0, .event e.component e.event⟩ number)
        (.event e.component e.event) =
          ⟨[.opened 0 (.event e.component e.event)], p.naming [e.component]⟩ := by
      rw [takeStatement, openRoot_eq h rfl rfl]
      rfl
    rw [Root.rows, takeRows_cons _ _ (hx _ List.mem_cons_self), hopen, closeAll_bodyRows rfl _
        (fun row hr ↦ hx row (List.mem_cons_of_mem _ hr))
        (fun target value hm ↦ hd target value (List.mem_cons_of_mem _ hm)),
      store_naming, Program.naming_naming]
    rfl
  | procedure q =>
    rw [Root.rows, takeRows_cons _ _ (hx _ List.mem_cons_self), takeStatement,
      openRoot_eq h rfl rfl, closeAll_bodyRows rfl _
        (fun row hr ↦ hx row (List.mem_cons_of_mem _ hr))
        (fun target value hm ↦ hd target value (List.mem_cons_of_mem _ hm))]
    rfl

/-- The rows of several roots store them all. -/
theorem closeAll_takeRows_flatMap (h : a.closeAll = ⟨[], p⟩) (number : Nat) (roots : List Root)
    (hx : ∀ row ∈ roots.flatMap Root.rows, row.statement.Expressible)
    (hd : ∀ target value, Node.define target value ∉ roots.flatMap Root.nodes) :
    (a.takeRows number (roots.flatMap Root.rows)).closeAll =
      ⟨[], (roots.foldl store p).naming (named (roots.flatMap Root.rows))⟩ := by
  induction roots generalizing a p number with
  | nil => exact h
  | cons root roots ih =>
    simp only [List.flatMap_cons, List.mem_append, not_or] at hx hd ⊢
    have hfirst := closeAll_takeRows h number root (fun row hr ↦ hx row (.inl hr))
      (fun target value ↦ (hd target value).1)
    rw [takeRows_append, ih hfirst _ (fun row hr ↦ hx row (.inr hr))
      (fun target value ↦ (hd target value).2), named_append, List.foldl_cons,
      ← Program.naming_naming, foldl_store_naming]

/-- The rows of variables declare them. -/
theorem takeRows_globals (number : Nat) (vs : List Variable) (p : Program)
    (hx : ∀ v ∈ vs, v.row.statement.Expressible) :
    takeRows ⟨[], p⟩ number (vs.map Variable.row) =
      ⟨[], { p with globals := p.globals ++ vs }⟩ := by
  induction vs generalizing p number with
  | nil =>
    rw [List.append_nil]
    rfl
  | cons v vs ih =>
    rw [List.map_cons, takeRows_cons _ _ (hx v List.mem_cons_self)]
    have htake : takeStatement (v.row.line number) ⟨[], p⟩ v.row.statement =
        ⟨[], { p with globals := p.globals ++ [v] }⟩ := rfl
    rw [htake, ih _ _ (fun other ho ↦ hx other (List.mem_cons_of_mem _ ho))]
    simp

end roots

end Assembly

namespace Program

/-- Storing the roots of a program gives it its handlers and procedures. -/
theorem foldl_store_forest (p q : Program) : p.forest.foldl Assembly.store q =
    { q with events := q.events ++ p.events, procedures := q.procedures ++ p.procedures } := by
  have hp (procedures : List Procedure) (q : Program) :
      (procedures.map Root.procedure).foldl Assembly.store q =
        { q with procedures := q.procedures ++ procedures } := by
    induction procedures generalizing q with
    | nil => simp
    | cons procedure procedures ih => rw [List.map_cons, List.foldl_cons, ih]; simp [Assembly.store]
  have he (events : List Event) (q : Program) :
      (events.map Root.event).foldl Assembly.store q = { q with events := q.events ++ events } := by
    induction events generalizing q with
    | nil => simp
    | cons event events ih => rw [List.map_cons, List.foldl_cons, ih]; simp [Assembly.store]
  rw [forest, roots, roots, List.foldl_append, hp, he]

/-- Reading the canonical script of a program that it can express gives the program back. -/
theorem ofScript_script (p : Program) (h : p.Expressible) : ofScript p.script = p := by
  have hsay : sayings (p.forest.flatMap Root.rows) = p.nodes.map Node.statement :=
    sayings_flatMap_rows p.forest
  have hforest : ∀ row ∈ p.forest.flatMap Root.rows, row.statement.Expressible := by
    apply expressible_of_sayings
    rw [hsay]
    intro s hs
    obtain ⟨node, hn, rfl⟩ := List.mem_map.mp hs
    exact (h.nodes_expressible node hn).2
  have hglobals : ∀ v ∈ p.globals, v.row.statement.Expressible := h.globals_expressible
  have hrows : ∀ row ∈ p.rows, row.statement.Expressible := by
    intro row hr
    rcases List.mem_append.mp hr with hr | hr
    · obtain ⟨v, hv, rfl⟩ := List.mem_map.mp hr
      exact hglobals v hv
    · exact hforest row hr
  have hcomponents :
      Ordered.insertNames [] (named (p.forest.flatMap Root.rows)) = p.components := by
    -- Both are in order, so it is enough that they hold the same names.
    apply Ordered.insertNames_eq h.components_sorted
    intro name
    rw [h.mem_components, named_eq, hsay, List.mem_filterMap]
    simp
  have hread : (Assembly.takeRows Assembly.empty 1 p.rows).closeAll =
      ⟨[], (p.forest.foldl Assembly.store { empty with globals := p.globals }).naming
        (named (p.forest.flatMap Root.rows))⟩ := by
    rw [rows, Assembly.takeRows_append, Assembly.empty, Assembly.takeRows_globals _ _ _ hglobals]
    exact Assembly.closeAll_takeRows_flatMap rfl _ _ hforest
      (fun target value hm ↦ Bool.noConfusion (h.nodes_expressible _ hm).1)
  rw [ofScript, script, sourceLines_rowsText hrows, Assembly.finish]
  rw [Assembly.takeRows] at hread
  rw [hread, foldl_store_forest]
  simp only [naming, empty, List.nil_append, hcomponents, ← h.diagnostics_eq]

/-- Conditions and values that hold closing words, quotes and marks, an empty body, and conditionals
inside both arms of another. -/
def intricate : Program where
  events := [⟨"Button1", "Click",
    [.branch "a then b" [] [.branch "x" [.assign "n" "// 1"] [.loop "do do" []]],
      .call "Camera1" "TakePicture" ["it's ", "\"(1)\""], .call "Greet" "Greet" ["you"]]⟩]
  globals := [⟨"n", "\""⟩, ⟨"text", " as is "⟩]
  procedures := [⟨"Greet", ["name"],
    [.forEach "item" "items" [.branch "c" [.setProperty "Label1" "Text" ""] []]]⟩]
  components := ["Button1", "Camera1", "Label1"]
  diagnostics := []

/-- The program above is read back from its script. -/
theorem ofScript_script_intricate :
    intricate.Expressible ∧ ofScript intricate.script = intricate := by
  have h : intricate.Expressible := by
    refine ⟨by decide, by decide, by decide, fun name ↦ ?_, rfl⟩
    have hc : intricate.components = Ordered.insertNames []
        (intricate.nodes.filterMap (fun node ↦ node.statement.component?)) := by decide
    rw [hc, Ordered.mem_insertNames, List.mem_filterMap, or_iff_right List.not_mem_nil]
  exact ⟨h, ofScript_script intricate h⟩

end Program

end Blockwright.Script
