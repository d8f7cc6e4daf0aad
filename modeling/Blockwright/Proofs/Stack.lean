import Blockwright.Proofs.Joining
import Mathlib.Logic.Function.Iterate

/-!
# The open blocks at every moment

However a script is indented and whatever its lines say, the open blocks stand in a root, each
indented deeper than those around it, and the arms of open conditionals have the conditions they
need. Opening, closing and filling blocks does not see to this by itself: it holds because every
line closes blocks before it opens one.
-/

namespace Blockwright.Script

/-! ### Well-formed open blocks -/

/-- Every finished arm of a conditional has a condition. So has the arm being filled, unless it is
the last one, which has none and follows at least one other. -/
def Header.Armed : Header → Prop
  | branch condition arms inElse => (∀ arm ∈ arms, arm.1 ≠ "") ∧
    if inElse then condition = "" ∧ arms ≠ [] else condition ≠ ""
  | _ => True

private theorem Header.Armed.finished {condition : String} {arms : List Arm}
    (h : (Header.branch condition arms false).Armed) (actions : List Action) :
    ∀ arm ∈ arms ++ [(condition, actions)], arm.1 ≠ "" := by
  rw [List.forall_mem_append, List.forall_mem_singleton]
  exact h

namespace Frame

/-- What the start of an arm keeps of a block: where it stands, that it is no root, and that its
arms have their conditions. -/
def Rearmed (f g : Frame) : Prop :=
  g.indent = f.indent ∧ g.header.isRoot = f.header.isRoot ∧ g.header.Armed

variable {indent : Nat} {f g : Frame}

private theorem rearmed_startArm {condition : String} {last : Bool} (hc : last ↔ condition = "")
    (ha : f.header.Armed) (h : f.startArm indent condition last = some g) : Rearmed f g := by
  obtain ⟨current, arms, hf, rfl⟩ := startArm_eq_some_iff.mp h
  rw [hf] at ha ⊢
  refine ⟨rfl, rfl, ha.finished _, ?_⟩
  cases last with
  | false => exact fun he ↦ nomatch hc.mpr he
  | true => exact ⟨hc.mp rfl, by simp⟩

end Frame

namespace Scope

/-- How the open blocks of a script stand. -/
structure WellFormed (scope : Scope) : Prop where
  /-- The outermost block is a root. -/
  root : ∀ frame ∈ scope.getLast?, frame.header.isRoot
  /-- Every other block is a control structure. -/
  control : ∀ frame ∈ scope.dropLast, frame.header.isRoot = false
  /-- Every block is indented deeper than those around it. -/
  deepens : scope.Pairwise (fun inner outer ↦ outer.indent < inner.indent)
  /-- The arms of conditionals have the conditions they need. -/
  armed : ∀ frame ∈ scope, frame.header.Armed

/-- Closes the innermost block. An action carried out of the outermost block is lost. -/
def pop : Scope → Scope
  | [] => []
  | frame :: outer =>
    match frame.close with
    | .root _ => outer
    | .action action => receive (some action) outer

namespace WellFormed

variable {scope outer : Scope} {frame next : Frame}

/-- No open blocks are well formed. -/
theorem nil : WellFormed [] where
  root _ hm := by cases hm
  control _ hm := by cases hm
  deepens := .nil
  armed _ hm := by cases hm

private theorem cons_iff : WellFormed (frame :: outer) ↔ frame.header.isRoot = outer.isEmpty ∧
    (∀ other ∈ outer, other.indent < frame.indent) ∧ frame.header.Armed ∧ WellFormed outer := by
  constructor
  · rintro ⟨hroot, hcontrol, hdeepens, harmed⟩
    rw [List.pairwise_cons] at hdeepens
    rw [List.forall_mem_cons] at harmed
    cases outer with
    | nil => exact ⟨by simpa using hroot, hdeepens.1, harmed.1, nil⟩
    | cons parent outer =>
      rw [List.getLast?_cons_cons] at hroot
      rw [List.dropLast_cons_cons, List.forall_mem_cons] at hcontrol
      exact ⟨hcontrol.1, hdeepens.1, harmed.1, hroot, hcontrol.2, hdeepens.2, harmed.2⟩
  · rintro ⟨hframe, hindent, harmed, houter⟩
    refine ⟨?_, ?_, .cons hindent houter.deepens, List.forall_mem_cons.mpr ⟨harmed, houter.armed⟩⟩
    · cases outer with
      | nil => simpa using hframe
      | cons parent outer =>
        rw [List.getLast?_cons_cons]
        exact houter.root
    · cases outer with
      | nil => simp
      | cons parent outer =>
        rw [List.dropLast_cons_cons, List.forall_mem_cons]
        exact ⟨hframe, houter.control⟩

private theorem replace (h : WellFormed (frame :: outer)) (hi : next.indent = frame.indent)
    (hr : next.header.isRoot = frame.header.isRoot) (ha : next.header.Armed) :
    WellFormed (next :: outer) := by
  obtain ⟨hframe, hindent, -, houter⟩ := cons_iff.mp h
  exact cons_iff.mpr ⟨hr.trans hframe, hi ▸ hindent, ha, houter⟩

private theorem add (h : WellFormed (frame :: outer)) (action : Action) :
    WellFormed (frame.add action :: outer) :=
  h.replace rfl rfl (cons_iff.mp h).2.2.1

private theorem receive (h : WellFormed scope) (action : Action) :
    WellFormed (receive (some action) scope) := by
  cases scope with
  | nil => exact h
  | cons frame outer => exact h.add action

private theorem pop (h : WellFormed scope) : WellFormed (pop scope) := by
  cases scope with
  | nil => exact h
  | cons frame outer =>
    have houter := (cons_iff.mp h).2.2.2
    rw [Scope.pop]
    split
    · exact houter
    · exact houter.receive _

/-- Closing any number of blocks leaves well-formed ones. -/
theorem iterate_pop (h : WellFormed scope) (count : Nat) :
    WellFormed (Scope.pop^[count] scope) := by
  induction count generalizing scope with
  | zero => exact h
  | succ count ih => exact ih h.pop

/-- A control structure that is closed has a block around it that its action goes to. -/
theorem exists_parent (h : WellFormed (frame :: outer)) {action : Action}
    (hc : frame.close = .action action) : ∃ parent rest, outer = parent :: rest ∧
      Scope.pop (frame :: outer) = parent.add action :: rest := by
  have hroot := (cons_iff.mp h).1
  rw [Frame.isRoot_of_close hc] at hroot
  cases outer with
  | nil => cases hroot
  | cons parent rest =>
    refine ⟨parent, rest, rfl, ?_⟩
    rw [Scope.pop, hc]
    rfl

/-- At most one root is open. -/
theorem countP_isRoot_le (h : WellFormed scope) :
    scope.countP (fun frame ↦ frame.header.isRoot) ≤ 1 := by
  cases scope with
  | nil => exact Nat.zero_le 1
  | cons frame outer =>
    have hinner : ((frame :: outer).dropLast).countP (fun frame ↦ frame.header.isRoot) = 0 := by
      rw [List.countP_eq_zero]
      intro other hm
      rw [h.control other hm]
      exact Bool.false_ne_true
    rw [← List.dropLast_concat_getLast (List.cons_ne_nil frame outer), List.countP_append, hinner,
      Nat.zero_add, List.countP_singleton]
    split <;> omega

end WellFormed

/-! ### Closing by a test -/

variable {test : Frame → Bool} {scope : Scope}

/-- Closing by a test closes one block after the other. -/
theorem exists_iterate_pop (test : Frame → Bool) (carried : Option Action) (scope : Scope) :
    ∃ count, (closeWhile test carried scope).2 = pop^[count] (receive carried scope) := by
  -- In every step `first` is the innermost block with what was carried into it, so to close it is
  -- one `pop` and leaves what the next step starts from.
  fun_induction closeWhile test carried scope with
  | case1 carried => exact ⟨0, rfl⟩
  | case2 carried frame outer first ht root hc roots rest hr ih =>
    obtain ⟨count, ih⟩ := ih
    rw [hr, receive_none] at ih
    refine ⟨count + 1, ih.trans ?_⟩
    show _ = pop^[count] (pop (first :: outer))
    rw [pop, hc]
  | case3 carried frame outer first ht action hc ih =>
    obtain ⟨count, ih⟩ := ih
    refine ⟨count + 1, ih.trans ?_⟩
    show _ = pop^[count] (pop (first :: outer))
    rw [pop, hc]
  | case4 carried frame outer first ht => exact ⟨0, rfl⟩

private theorem test_of_mem_head? (test : Frame → Bool) (carried : Option Action) (scope : Scope) :
    ∀ frame ∈ (closeWhile test carried scope).2.head?, test frame = false := by
  fun_induction closeWhile test carried scope with
  | case1 carried => exact fun _ hm ↦ by cases hm
  | case2 carried frame outer first ht root hc roots rest hr ih => rwa [hr] at ih
  | case3 carried frame outer first ht action hc ih => exact ih
  | case4 carried frame outer first ht =>
    intro other hm
    cases hm
    simpa using ht

namespace WellFormed

private theorem closeWhile (h : WellFormed scope) (test : Frame → Bool) :
    WellFormed (closeWhile test none scope).2 := by
  obtain ⟨count, he⟩ := exists_iterate_pop test none scope
  rw [he, receive_none]
  exact h.iterate_pop count

/-- Blocks that are left by closing to an indentation are indented less. -/
theorem lt_of_mem_closeTo (h : WellFormed scope) (indent : Nat) :
    ∀ frame ∈ (closeTo indent scope).2, frame.indent < indent := by
  have hleft := h.closeWhile (fun frame ↦ indent ≤ frame.indent)
  have htest := test_of_mem_head? (fun frame ↦ indent ≤ frame.indent) none scope
  rw [closeTo]
  generalize (Scope.closeWhile (fun frame ↦ indent ≤ frame.indent) none scope).2 = rest at *
  cases rest with
  | nil => exact fun _ hm ↦ by cases hm
  | cons frame outer =>
    have hframe : frame.indent < indent := by simpa using htest frame rfl
    intro other hm
    rcases List.mem_cons.mp hm with rfl | hm
    · exact hframe
    · exact Nat.lt_trans ((cons_iff.mp hleft).2.1 other hm) hframe

private theorem push (h : WellFormed scope) {next : Frame} {opened : Scope}
    (hp : scope.push next = some opened) (hr : next.header.isRoot = false)
    (hi : ∀ other ∈ scope, other.indent < next.indent) (ha : next.header.Armed) :
    WellFormed opened := by
  rw [Scope.push] at hp
  split at hp
  · cases hp
  · next hopen =>
    cases hp
    refine cons_iff.mpr ⟨?_, hi, ha, h⟩
    simpa [hr] using hopen

end WellFormed

end Scope

/-! ### Lines -/

namespace Assembly

open Scope

variable {a : Assembly} {line : SourceLine}

private theorem scope_openRoot (a : Assembly) (line : SourceLine) {header : Header}
    (hr : header.isRoot) : (a.openRoot line header).scope = [.opened line.indent header] := by
  have hp : a.closeAll.scope.push (.opened line.indent header) =
      some [.opened line.indent header] := by
    rw [a.scope_closeAll, push, show (Frame.opened line.indent header).header.isRoot = true from hr]
    rfl
  rw [openRoot, hp]
  rfl

section wellFormed

variable (h : a.scope.WellFormed)

include h

private theorem wellFormed_closeTo (indent : Nat) : (a.closeTo indent).scope.WellFormed :=
  h.closeWhile (fun frame ↦ indent ≤ frame.indent)

private theorem wellFormed_openControl {header : Header} (hr : header.isRoot = false)
    (ha : header.Armed) : (a.openControl line header).scope.WellFormed := by
  have hclosed := wellFormed_closeTo h line.indent
  have hless : ∀ other ∈ (a.closeTo line.indent).scope, other.indent < line.indent :=
    h.lt_of_mem_closeTo line.indent
  unfold openControl
  dsimp only
  cases hp : (a.closeTo line.indent).scope.push (.opened line.indent header) with
  | none => exact hclosed
  | some opened => exact hclosed.push hp hr hless ha

private theorem wellFormed_add (action : Action) : ∀ scope,
    (a.closeTo line.indent).scope.add action = some scope → scope.WellFormed := by
  have hclosed := wellFormed_closeTo h line.indent
  intro scope hadd
  cases hs : (a.closeTo line.indent).scope with
  | nil =>
    rw [hs] at hadd
    cases hadd
  | cons frame outer =>
    rw [hs] at hadd hclosed
    cases hadd
    exact hclosed.add action

private theorem wellFormed_perform (component : Option String) (action : Action) :
    (a.perform line component action).scope.WellFormed := by
  unfold perform
  dsimp only
  split
  · next scope hs =>
    have hscope := wellFormed_add h action scope hs
    cases component <;> exact hscope
  · exact wellFormed_closeTo h line.indent

private theorem wellFormed_arm {condition : String} {last : Bool} (hc : last ↔ condition = "") :
    ((a.closeDeeper line.indent).withScope ((a.closeDeeper line.indent).scope.modify
      (Frame.startArm line.indent condition last)) (strayArm line)).scope.WellFormed := by
  have hclosed : (a.closeDeeper line.indent).scope.WellFormed :=
    h.closeWhile (fun frame ↦ line.indent < frame.indent)
  cases hm : (a.closeDeeper line.indent).scope.modify
      (Frame.startArm line.indent condition last) with
  | none => exact wellFormed_closeTo (a := (a.closeDeeper line.indent).complain _ _) hclosed _
  | some changed =>
    show changed.WellFormed
    cases hs : (a.closeDeeper line.indent).scope with
    | nil =>
      rw [hs] at hm
      cases hm
    | cons frame outer =>
      rw [hs] at hm hclosed
      obtain ⟨next, hn, rfl⟩ := Option.map_eq_some_iff.mp hm
      obtain ⟨hi, hr, ha⟩ := Frame.rearmed_startArm hc (WellFormed.cons_iff.mp hclosed).2.2.1 hn
      exact hclosed.replace hi hr ha

/-- Every line leaves well-formed blocks. -/
theorem wellFormed_take (line : SourceLine) : (a.take line).scope.WellFormed := by
  have hroot {header : Header} (hr : header.isRoot) (ha : header.Armed) :
      (a.openRoot line header).scope.WellFormed := by
    rw [scope_openRoot a line hr]
    exact WellFormed.cons_iff.mpr ⟨hr, List.forall_mem_nil _, ha, WellFormed.nil⟩
  unfold take
  cases hl : Statement.read line.text with
  | none => exact h
  | some statement =>
    cases statement with
    | event component occurrence => exact hroot rfl trivial
    | procedure name parameters => exact hroot rfl trivial
    | declare name value =>
      show ((a.closeTo line.indent).withScope _ id).scope.WellFormed
      cases hadd : (a.closeTo line.indent).scope.add (.define name value) with
      | none => exact wellFormed_closeTo h line.indent
      | some scope => exact wellFormed_add h _ scope hadd
    | setProperty component property value => exact wellFormed_perform h _ _
    | assign target value => exact wellFormed_perform h _ _
    | callMethod component method arguments => exact wellFormed_perform h _ _
    | callProcedure name arguments => exact wellFormed_perform h _ _
    | branch condition =>
      -- A line that reads as a condition does not leave it empty; no operation on blocks checks it.
      have hne : condition ≠ "" := Statement.named_of_node? hl rfl
      exact wellFormed_openControl h rfl ⟨List.forall_mem_nil _, hne⟩
    | loop condition => exact wellFormed_openControl h rfl trivial
    | forEach item list => exact wellFormed_openControl h rfl trivial
    | elseIf condition =>
      have hne : condition ≠ "" := Statement.named_of_node? hl rfl
      exact wellFormed_arm h (by simp [hne])
    | otherwise => exact wellFormed_arm h (by simp)
    | closing => exact wellFormed_closeTo h line.indent

/-- So do any lines. -/
theorem wellFormed_foldl_take (lines : List SourceLine) :
    (lines.foldl Assembly.take a).scope.WellFormed := by
  induction lines generalizing a with
  | nil => exact h
  | cons line lines ih => exact ih (wellFormed_take h line)

end wellFormed

end Assembly

/-! ### Moments -/

/-- The blocks that are open behind some lines of a script, after some of them have been closed. A
line that is being taken closes blocks first, one at a time, and then changes the innermost one or
opens one; so at every moment of reading the open blocks are of this form. -/
def openBlocks (script : String) (lines closed : Nat) : Scope :=
  Scope.pop^[closed] (((sourceLines script).take lines).foldl Assembly.take Assembly.empty).scope

example : openBlocks "when A.B\n\tif x then\n\telse\n\t\twhile y do\n\t\t\tset z to 1" 5 0 =
    [⟨8, .loop "y", [.assign "z" "1"]⟩, ⟨4, .branch "" [("x", [])] true, []⟩,
      ⟨0, .event "A" "B", []⟩] := by
  decide +kernel

/-- The open blocks of a script are well formed at every moment, and closing by a test only ever
leads to such moments. So closing to an indentation leaves no block that is indented as much or
deeper, at most one root is open, and a control structure that is closed always has a block around
it that takes its action. -/
theorem openBlocks_wellFormed (script : String) (lines closed : Nat) :
    (openBlocks script lines closed).WellFormed ∧
    (∀ test, ∃ more, ((openBlocks script lines closed).closeWhile test none).2 =
      openBlocks script lines (closed + more)) ∧
    (∀ indent, ∀ frame ∈ ((openBlocks script lines closed).closeTo indent).2,
      frame.indent < indent) ∧
    (openBlocks script lines closed).countP (fun frame ↦ frame.header.isRoot) ≤ 1 ∧
    ∀ frame outer action, openBlocks script lines closed = frame :: outer →
      frame.close = .action action → ∃ parent rest, outer = parent :: rest ∧
        openBlocks script lines (closed + 1) = parent.add action :: rest := by
  have h : (openBlocks script lines closed).WellFormed :=
    (Assembly.wellFormed_foldl_take Scope.WellFormed.nil _).iterate_pop closed
  have hmore (more : Nat) : openBlocks script lines (closed + more) =
      Scope.pop^[more] (openBlocks script lines closed) := by
    rw [openBlocks, Nat.add_comm, Function.iterate_add_apply]
    rfl
  refine ⟨h, ?_, h.lt_of_mem_closeTo, h.countP_isRoot_le, ?_⟩
  · intro test
    obtain ⟨more, he⟩ := Scope.exists_iterate_pop test none (openBlocks script lines closed)
    exact ⟨more, by rw [he, Scope.receive_none, hmore]⟩
  · intro frame outer action hs hc
    rw [hmore, hs]
    rw [hs] at h
    exact h.exists_parent hc

end Blockwright.Script
