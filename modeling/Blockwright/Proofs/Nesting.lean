import Blockwright.Proofs.Diagnostics
import Blockwright.Proofs.Placement

/-!
# The nodes of a script and how they are nested

Every accepted line that stands for a node makes exactly one, in the order of the lines, and the
node lies in the branch that the offside rule names.
-/

namespace Blockwright.Script

/-! ### The walk over a whole script -/

private theorem Assembly.visits_finish {a : Assembly} {o : Outline} (h : Traces a o)
    (kind : RootKind) :
    a.finish.visits kind = a.log kind := by
  have hc := h.closeBy (fun _ ↦ true)
  have ho : (o.closeBy (fun _ ↦ true)).openings = [] := by
    simp [Outline.closeBy, List.dropWhile_eq_nil_iff]
  have hs : a.closeAll.scope = [] := hc.scope_eq_nil_iff.mpr ho
  calc a.finish.visits kind
    _ = a.closeAll.log kind := by
      rw [Assembly.log, hs]
      exact (List.append_nil _).symm
    _ = a.log kind := Assembly.log_closeBy (fun _ ↦ true) h.nested kind

/-- The walk over a script's program visits the nodes of the lines that made one. -/
theorem visits_ofScript (script : String) (kind : RootKind) :
    ((Program.ofScript script).visits kind).map some =
      ((Outline.after (sourceLines script).reverse).made kind).map Entry.visit? := by
  have h := Assembly.traces_after (sourceLines script).reverse
  rw [Program.ofScript_eq, Assembly.visits_finish h, h.log_eq]

/-- The nodes of a script's program are those of the lines that the rules pick. -/
theorem nodes_ofScript (script : String) (kind : RootKind) :
    (((Program.ofScript script).visits kind).map Visit.node).map some =
      (nodeLines (Program.ofScript script).accepts kind (sourceLines script).reverse).map
        SourceLine.node? := by
  rw [← Outline.map_line_made (judges_ofScript script), List.map_map, List.map_map]
  have h := congrArg (List.map (Option.map Visit.node)) (visits_ofScript script kind)
  rw [List.map_map, List.map_map] at h
  refine h.trans (List.map_congr_left (fun entry _ ↦ ?_))
  show (entry.line.node?.map _).map Visit.node = entry.line.node?
  cases entry.line.node? <;> rfl

/-- The visit of the node that the line behind some lines makes. -/
def Program.visitBehind? (p : Program) (kind : RootKind) (past : List SourceLine) :
    Option Visit := (p.visits kind)[rank p.accepts kind past]?

/-- The node of a line is visited at the line's position, in the branch that the rules name. -/
theorem exists_visit (script : String) {newer past : List SourceLine} {line : SourceLine}
    (hs : (sourceLines script).reverse = newer ++ line :: past) {kind : RootKind}
    (hm : makesNode (Program.ofScript script).accepts kind past line) :
    ∃ node inside, line.node? = some node ∧
      LiesIn (Program.ofScript script).accepts kind past line inside ∧
      (Program.ofScript script).visitBehind? kind past = some ⟨node, inside⟩ := by
  have hj := judges_ofScript script
  have hv := visits_ofScript script kind
  rw [hs] at hj hv
  obtain ⟨inside, hin, he⟩ := Outline.exists_entry hj hm
  have hentry : ((Program.ofScript script).visitBehind? kind past).map some =
      some (Entry.visit? ⟨line, inside⟩) := by
    rw [Program.visitBehind?, ← List.getElem?_map, hv, List.getElem?_map, he]
    rfl
  obtain ⟨visit, hvisit, heq⟩ := Option.map_eq_some_iff.mp hentry
  obtain ⟨node, hnode, rfl⟩ := Option.map_eq_some_iff.mp heq.symm
  exact ⟨node, inside, hnode, hin, hvisit⟩

/-! ### No line is lost -/

/-- No accepted line is lost, doubled or moved: the nodes of the handlers are those of the accepted
lines under the header of a handler, in the order of the script, and the same holds of procedures.
The variables are those of all declarations, inside of blocks and outside. -/
theorem nodes_of_lines (script : String) :
    ((Program.ofScript script).events.flatMap Event.nodes).map some =
      (nodeLines (Program.ofScript script).accepts .event (sourceLines script).reverse).map
        SourceLine.node? ∧
    ((Program.ofScript script).procedures.flatMap Procedure.nodes).map some =
      (nodeLines (Program.ofScript script).accepts .procedure (sourceLines script).reverse).map
        SourceLine.node? ∧
    (Program.ofScript script).globals = (sourceLines script).filterMap SourceLine.declared? := by
  refine ⟨?_, ?_, ?_⟩
  · rw [← Program.map_node_visits_event, nodes_ofScript]
  · rw [← Program.map_node_visits_procedure, nodes_ofScript]
  · have hg := Assembly.globals_after (sourceLines script).reverse
    rw [List.reverse_reverse] at hg
    rw [← hg]
    exact congrArg Notes.globals (Program.notes_ofScript script)

/-! ### The offside rule -/

private theorem node?_of_needsBlock {past : List SourceLine} {line : SourceLine}
    (h : line.needsBlock ∨ line.declared?.isSome ∧ inScope past line.indent) :
    line.node?.isSome ∧ (line.declared? = none ∨ inScope past line.indent) ∧
      line.kind? = none ∧ line.isArm = false := by
  cases hl : line.statement? with
  | none => simp [SourceLine.needsBlock, SourceLine.declared?, hl] at h
  | some statement =>
    rw [SourceLine.needsBlock_of_statement hl, SourceLine.declared?_of_statement hl] at h
    rw [SourceLine.node?_of_statement hl, SourceLine.declared?_of_statement hl,
      SourceLine.kind?_of_statement hl, SourceLine.isArm_of_statement hl]
    cases statement <;>
      simp_all [Statement.needsBlock, Statement.declared?, Statement.node?, Statement.kind?,
        Statement.isArm]

/-- Nodes are nested by the offside rule. A line's position in the walk is that of its node. The
node of an accepted action, control structure or declaration in a block lies in the branch that was
opened by the latest earlier line able to hold it, and the node of an accepted further arm lies in
the alternative of the arm before. -/
theorem nested_by_offside (script : String) {newer past : List SourceLine} {line : SourceLine}
    (hs : (sourceLines script).reverse = newer ++ line :: past)
    (ha : (Program.ofScript script).accepts line) :
    (∀ kind, makesNode (Program.ofScript script).accepts kind past line →
      ((Program.ofScript script).visitBehind? kind past).map Visit.node = line.node?) ∧
    (line.needsBlock ∨ line.declared?.isSome ∧ inScope past line.indent →
      ∃ kind node opener older branch, latestKind? past = some kind ∧ line.node? = some node ∧
        HeldBy (Program.ofScript script).accepts past line.indent opener older ∧
        OpensBranch (Program.ofScript script).accepts kind opener older branch ∧
        (Program.ofScript script).visitBehind? kind past = some ⟨node, branch⟩) ∧
    (∀ condition, line.statement? = some (.elseIf condition) →
      ∃ kind arm older, latestKind? past = some kind ∧
        PreviousArm (Program.ofScript script).accepts past line.indent arm older ∧
        (Program.ofScript script).visitBehind? kind past = some ⟨.branch condition,
          .otherwise (rank (Program.ofScript script).accepts kind older)⟩) := by
  have hj := judges_ofScript script
  rw [hs] at hj
  refine ⟨?_, ?_, ?_⟩
  · intro kind hm
    obtain ⟨node, inside, hnode, -, hvisit⟩ := exists_visit script hs hm
    rw [hvisit, hnode]
    rfl
  · intro hblock
    obtain ⟨hn, hv, hk, harm⟩ := node?_of_needsBlock hblock
    obtain ⟨kind, hm⟩ := Outline.exists_makesNode hj.earlier ha hn hv
    have hlatest := ((makesNode_other hk kind past).mp hm).2.2.2
    obtain ⟨node, inside, hnode, hin, hvisit⟩ := exists_visit script hs hm
    cases hin with
    | top hh => rw [SourceLine.isHeader, hk] at hh; cases hh
    | held _ opener older hheld _ hopens =>
      exact ⟨kind, node, opener, older, inside, hlatest, hnode, hheld, hopens, hvisit⟩
    | arm ha' => rw [harm] at ha'; cases ha'
  · intro condition hl
    have hk : line.kind? = none := SourceLine.kind?_of_statement hl
    have hn : line.node? = some (.branch condition) := SourceLine.node?_of_statement hl
    have hv : line.declared? = none := SourceLine.declared?_of_statement hl
    obtain ⟨kind, hm⟩ := Outline.exists_makesNode hj.earlier ha (by rw [hn]; rfl) (.inl hv)
    have hlatest := ((makesNode_other hk kind past).mp hm).2.2.2
    obtain ⟨node, inside, hnode, hin, hvisit⟩ := exists_visit script hs hm
    cases hn.symm.trans hnode
    cases hin with
    | top hh => rw [SourceLine.isHeader, hk] at hh; cases hh
    -- What is held by the body of a line is never an arm.
    | held harm => rw [SourceLine.isArm_of_statement hl] at harm; cases harm
    | arm _ arm older hprevious => exact ⟨kind, arm, older, hlatest, hprevious, hvisit⟩

/-- A call in the last arm of a conditional, behind a line that no rule accepts. -/
theorem nested_by_offside_call : ∃ script newer line past,
    (sourceLines script).reverse = newer ++ line :: past ∧ line.text = "Call q()" ∧
    (Program.ofScript script).accepts line ∧
    ∃ kind node opener older branch, latestKind? past = some kind ∧ line.node? = some node ∧
      HeldBy (Program.ofScript script).accepts past line.indent opener older ∧
      OpensBranch (Program.ofScript script).accepts kind opener older branch ∧
      (Program.ofScript script).visitBehind? kind past = some ⟨node, branch⟩ := by
  obtain ⟨script, hs⟩ : ∃ script, (sourceLines script).reverse = [] ++ ⟨6, 4, "Call q()"⟩ ::
      [⟨5, 4, "???"⟩, ⟨4, 2, "Else"⟩, ⟨3, 4, "Set y to 1"⟩, ⟨2, 2, "If x then"⟩,
        ⟨1, 0, "When A.B"⟩] := by
    refine ⟨String.ofList (textOf ["When A.B".toList, "  If x then".toList,
      "    Set y to 1".toList, "  Else".toList, "    ???".toList, "    Call q()".toList]), ?_⟩
    rw [sourceLines, String.toList_ofList, rawLines_textOf (by decide)]
    decide
  have ha : (Program.ofScript script).accepts ⟨6, 4, "Call q()"⟩ := by
    rw [Program.accepts, Program.diagnostics_ofScript, hs]
    decide
  exact ⟨script, _, _, _, hs, rfl, ha, (nested_by_offside script hs ha).2.1 (.inl (by decide))⟩

end Blockwright.Script
