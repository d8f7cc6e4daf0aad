import Blockwright.Proofs.Conservation

/-!
# Conditionals fold to the right

What is done inside an open block neither sees nor changes the blocks around it, so a block is
filled in the same way wherever it stands. The arms of a conditional are filled one after the other
in one open block; when it is closed, every arm lies in the alternative of the one before it, and
the last, unconditional one in the innermost alternative. Once that arm has been started, no other
can be.
-/

namespace Blockwright.Script

open Scope

/-! ### Inside a block -/

namespace Frame

/-- An open block with more actions at its end. -/
def extend (f : Frame) (actions : List Action) : Frame :=
  { f with actions := f.actions ++ actions }

@[simp] private theorem extend_nil (f : Frame) : f.extend [] = f := by
  rw [extend, List.append_nil]

@[simp] private theorem extend_extend (f : Frame) (first second : List Action) :
    (f.extend first).extend second = f.extend (first ++ second) := by
  rw [extend, extend, extend, List.append_assoc]

end Frame

namespace Operation

/-- What an operation makes of open blocks; a refused one leaves them as they are. -/
def perform (operation : Operation) (scope : Scope) : List Root × Scope :=
  (operation.attempt scope).getD ([], scope)

/-- Whether an operation stays inside a block at an indentation: blocks are opened deeper, and those
that are closed lie deeper. To start an arm at the same indentation goes beyond a block that
`awaits` one. -/
def isInside (indent : Nat) (awaits : Bool) : Operation → Bool
  | push frame => indent < frame.indent
  | add _ => true
  | closeTo other => indent < other
  | closeDeeper other => indent ≤ other
  | closeAll => false
  | elseIf other _ | otherwise other => !awaits || other != indent

end Operation

namespace Scope

/-- The blocks are indented deeper than some indentation. -/
def DeeperThan (indent : Nat) (inner : Scope) : Prop := ∀ frame ∈ inner, indent < frame.indent

/-- Some use of open blocks stays inside a block at an indentation, with blocks in it that are open:
it neither sees nor changes the blocks around it, and only adds actions to the block itself. -/
def StaysInside (indent : Nat) (awaits : Bool) (inner : Scope)
    (use : Scope → List Root × Scope) : Prop :=
  ∃ roots rest added, DeeperThan indent rest ∧ ∀ block outer, block.indent = indent →
    (block.header.awaitsArm → awaits) →
    use (inner ++ block :: outer) = (roots, rest ++ block.extend added :: outer)

variable {indent : Nat} {awaits : Bool} {inner : Scope}

private theorem staysInside_closeWhile (test : Nat → Bool) (ht : test indent = false)
    (carried : Option Action) (hi : DeeperThan indent inner) :
    StaysInside indent awaits inner (closeWhile (fun frame ↦ test frame.indent) carried) := by
  -- Closing goes outwards through `inner` and ends at the latest at the block itself, which takes
  -- what is then still carried.
  induction inner generalizing carried with
  | nil =>
    refine ⟨[], [], carried.toList, hi, fun block outer hb _ ↦ ?_⟩
    have hblock : carried.elim block block.add = block.extend carried.toList := by
      cases carried with
      | none => exact block.extend_nil.symm
      | some action => rfl
    rw [List.nil_append, closeWhile, hblock, if_neg]
    · rfl
    · show ¬ test block.indent = true
      rw [hb, ht]
      exact Bool.false_ne_true
  | cons frame inner ih =>
    have hinner : DeeperThan indent inner := fun other hm ↦ hi other (List.mem_cons_of_mem _ hm)
    have hframe : (carried.elim frame frame.add).indent = frame.indent := by cases carried <;> rfl
    by_cases hclosed : test frame.indent
    · cases hc : (carried.elim frame frame.add).close with
      | root root =>
        obtain ⟨roots, rest, added, hrest, hclose⟩ := ih none hinner
        refine ⟨root :: roots, rest, added, hrest, fun block outer hb ha ↦ ?_⟩
        rw [List.cons_append, closeWhile, hframe, if_pos hclosed, hc, hclose block outer hb ha]
      | action action =>
        obtain ⟨roots, rest, added, hrest, hclose⟩ := ih (some action) hinner
        refine ⟨roots, rest, added, hrest, fun block outer hb ha ↦ ?_⟩
        rw [List.cons_append, closeWhile, hframe, if_pos hclosed, hc]
        exact hclose block outer hb ha
    · refine ⟨[], carried.elim frame frame.add :: inner, [], ?_, fun block outer _ _ ↦ ?_⟩
      · exact List.forall_mem_cons.mpr ⟨hframe ▸ hi frame List.mem_cons_self, hinner⟩
      · rw [List.cons_append, closeWhile, hframe, if_neg hclosed, Frame.extend_nil]
        rfl

private theorem staysInside_startArm {other : Nat} (condition : String) (last : Bool)
    (h : !awaits || other != indent) (hi : DeeperThan indent inner) :
    StaysInside indent awaits inner (fun scope ↦
      ((scope.modify (Frame.startArm other condition last)).map ([], ·)).getD ([], scope)) := by
  cases inner with
  | nil =>
    -- No arm at this indentation goes to the block itself.
    refine ⟨[], [], [], hi, fun block outer hb ha ↦ ?_⟩
    have hblock : block.startArm other condition last = none := by
      rw [← Option.not_isSome_iff_eq_none, Frame.isSome_startArm, hb, Bool.and_eq_true, beq_iff_eq]
      rintro ⟨rfl, hawaits⟩
      simp [ha hawaits] at h
    simp [modify, hblock]
  | cons frame inner =>
    cases hn : frame.startArm other condition last with
    | none =>
      refine ⟨[], frame :: inner, [], hi, fun block outer _ _ ↦ ?_⟩
      simp [modify, hn]
    | some next =>
      have hframe := List.forall_mem_cons.mp hi
      refine ⟨[], next :: inner, [], ?_, fun block outer _ _ ↦ ?_⟩
      · exact List.forall_mem_cons.mpr ⟨(Frame.startArm_keeps hn).1 ▸ hframe.1, hframe.2⟩
      · simp [modify, hn]

end Scope

namespace Operation

variable {indent : Nat} {awaits : Bool}

private theorem staysInside_perform {operation : Operation} (h : operation.isInside indent awaits)
    {inner : Scope} (hi : DeeperThan indent inner) :
    StaysInside indent awaits inner operation.perform := by
  cases operation with
  | push frame =>
    have hframe : indent < frame.indent := of_decide_eq_true h
    refine ⟨[], frame :: inner, [], List.forall_mem_cons.mpr ⟨hframe, hi⟩, fun block outer _ _ ↦ ?_⟩
    simp [perform, attempt, Scope.push]
  | add action =>
    cases inner with
    -- With nothing open inside, the action goes to the block itself.
    | nil => exact ⟨[], [], [action], hi, fun _ _ _ _ ↦ rfl⟩
    | cons frame inner =>
      refine ⟨[], frame.add action :: inner, [], ?_, fun block outer _ _ ↦ ?_⟩
      · exact List.forall_mem_cons.mpr (List.forall_mem_cons.mp hi)
      · rw [Frame.extend_nil]
        rfl
  | closeTo other =>
    have hstays : decide (other ≤ indent) = false :=
      decide_eq_false (Nat.not_le.mpr (of_decide_eq_true h))
    exact staysInside_closeWhile (fun own ↦ other ≤ own) hstays none hi
  | closeDeeper other =>
    have hstays : decide (other < indent) = false :=
      decide_eq_false (Nat.not_lt.mpr (of_decide_eq_true h))
    exact staysInside_closeWhile (fun own ↦ other < own) hstays none hi
  | closeAll => cases h
  | elseIf other condition => exact staysInside_startArm condition false h hi
  | otherwise other => exact staysInside_startArm "" true h hi

end Operation

namespace Session

private theorem scope_take (s : Session) (operation : Operation) :
    (s.take operation).scope = (operation.perform s.scope).2 := by
  rw [take, Operation.perform]
  cases operation.attempt s.scope <;> rfl

/-- Operations in two parts. -/
theorem run_append (s : Session) (first second : List Operation) :
    s.run (first ++ second) = (s.run first).run second := List.foldl_append ..

/-- Operations that stay inside a block neither see nor change the blocks around it, and only add
actions to the block itself. -/
theorem run_inside {operations : List Operation} {indent : Nat} {awaits : Bool}
    (h : ∀ operation ∈ operations, operation.isInside indent awaits) (inner : Scope)
    (hi : DeeperThan indent inner) :
    ∃ rest added, DeeperThan indent rest ∧ ∀ (s : Session) block outer,
      s.scope = inner ++ block :: outer → block.indent = indent →
      (block.header.awaitsArm → awaits) →
      (s.run operations).scope = rest ++ block.extend added :: outer := by
  induction operations generalizing inner with
  | nil =>
    refine ⟨inner, [], hi, fun s block outer hs _ _ ↦ ?_⟩
    rw [Frame.extend_nil]
    exact hs
  | cons operation operations ih =>
    rw [List.forall_mem_cons] at h
    obtain ⟨roots, rest, added, hrest, hstep⟩ := Operation.staysInside_perform h.1 hi
    obtain ⟨last, more, hlast, hrun⟩ := ih h.2 rest hrest
    refine ⟨last, added ++ more, hlast, fun s block outer hs hb ha ↦ ?_⟩
    have hscope := s.scope_take operation
    rw [hs, hstep block outer hb ha] at hscope
    rw [← Frame.extend_extend]
    exact hrun (s.take operation) (block.extend added) outer hscope hb ha

end Session

/-! ### Filling a block -/

/-- Operations that fill a block at an indentation with a body. They stay inside the block, also if
it awaits an arm; and in a handler that stands alone, they leave the body and no open block. -/
structure Filling (indent : Nat) where
  operations : List Operation
  body : List Action
  isInside : ∀ operation ∈ operations, operation.isInside indent true
  scope_eq : (Session.run ⟨[.opened indent (.event "" "")], [], []⟩ operations).scope =
    [⟨indent, .event "" "", body⟩]

/-- A filling adds its body to every block at its indentation, wherever the block stands. -/
theorem Filling.scope_run {indent : Nat} (filling : Filling indent) (s : Session) {block : Frame}
    {outer : Scope} (hs : s.scope = block :: outer) (hb : block.indent = indent) :
    (s.run filling.operations).scope = block.extend filling.body :: outer := by
  obtain ⟨rest, added, -, hrun⟩ :=
    Session.run_inside filling.isInside [] (List.forall_mem_nil _)
  -- What is added does not depend on the block, so the handler that stands alone tells it.
  have halone := hrun ⟨[.opened indent (.event "" "")], [], []⟩ _ [] rfl rfl (fun _ ↦ rfl)
  rw [filling.scope_eq] at halone
  cases rest with
  | nil =>
    have hbody : filling.body = added := congrArg Frame.actions (List.cons.inj halone).1
    rw [hbody]
    exact hrun s block outer hs hb (fun _ ↦ rfl)
  | cons other rest => simp at halone

private theorem Session.scope_run_adds {s : Session} {block : Frame} {outer : Scope}
    (hs : s.scope = block :: outer) (actions : List Action) :
    (s.run (actions.map .add)).scope = block.extend actions :: outer := by
  induction actions generalizing s block with
  | nil =>
    rw [Frame.extend_nil]
    exact hs
  | cons action actions ih =>
    have htake : (s.take (.add action)).scope = block.extend [action] :: outer := by
      rw [scope_take, hs]
      rfl
    rw [← List.singleton_append, ← Frame.extend_extend]
    exact ih htake

/-- Every body can be filled in by adding its actions. -/
def Filling.plain (indent : Nat) (body : List Action) : Filling indent where
  operations := body.map .add
  body := body
  isInside operation ho := by
    obtain ⟨action, -, rfl⟩ := List.mem_map.mp ho
    rfl
  scope_eq := by
    show _ = [Frame.extend (.opened indent (.event "" "")) body]
    exact Session.scope_run_adds rfl body

/-! ### Arms -/

/-- A conditional at an indentation as it is written: the conditions of its arms, at least one, each
with operations that fill the arm, and maybe operations that fill a last, unconditional arm. -/
structure Conditional (indent : Nat) where
  condition : String
  filling : Filling indent
  further : List (String × Filling indent)
  last : Option (Filling indent)

/-- Nested arms are folded from the right. -/
theorem nestArms_eq_foldr (last : List Action) (arms : List Arm) :
    nestArms last arms = arms.foldr (fun arm inner ↦ [.branch arm.1 arm.2 inner]) last := by
  induction arms with
  | nil => rfl
  | cons arm arms ih => rw [nestArms, ih, List.foldr_cons]

namespace Conditional

variable {indent : Nat} (c : Conditional indent)

/-- The arms that have a condition, each with its body. -/
def arms : List Arm :=
  (c.condition, c.filling.body) :: c.further.map (fun arm ↦ (arm.1, arm.2.body))

/-- Opens the conditional and fills the arms that have a condition. -/
def conditionalOperations : List Operation :=
  .push (.opened indent (.branch c.condition [] false)) :: c.filling.operations ++
    c.further.flatMap (fun arm ↦ .elseIf indent arm.1 :: arm.2.operations)

/-- Opens the conditional and fills all its arms. -/
def operations : List Operation :=
  c.conditionalOperations ++
    c.last.elim [] (fun filling ↦ .otherwise indent :: filling.operations)

/-- The action that a conditional stands for: every further arm is the alternative of the one before
it, and the last arm is the innermost alternative. -/
def action : Action :=
  .branch c.condition c.filling.body
    (c.further.foldr (fun arm inner ↦ [.branch arm.1 arm.2.body inner])
      (c.last.elim [] Filling.body))

private theorem scope_further (s : Session) {condition : String} {arms : List Arm}
    {body : List Action} {outer : Scope} (further : List (String × Filling indent))
    (hs : s.scope = ⟨indent, .branch condition arms false, body⟩ :: outer) :
    ∃ current finished filled, finished ++ [(current, filled)] =
        arms ++ (condition, body) :: further.map (fun arm ↦ (arm.1, arm.2.body)) ∧
      (s.run (further.flatMap (fun arm ↦ .elseIf indent arm.1 :: arm.2.operations))).scope =
        ⟨indent, .branch current finished false, filled⟩ :: outer := by
  induction further generalizing s condition arms body with
  | nil => exact ⟨condition, arms, body, rfl, hs⟩
  | cons arm further ih =>
    -- The arm that was being filled is parked with its own condition, not with the new one.
    have htake : (s.take (.elseIf indent arm.1)).scope =
        ⟨indent, .branch arm.1 (arms ++ [(condition, body)]) false, []⟩ :: outer := by
      rw [Session.scope_take, hs]
      simp [Operation.perform, Operation.attempt, Scope.elseIf, Scope.modify, Frame.startArm]
    have hfilled := arm.2.scope_run _ htake rfl
    obtain ⟨current, finished, filled, harms, hrun⟩ := ih _ hfilled
    refine ⟨current, finished, filled, ?_, ?_⟩
    · rw [harms, List.append_assoc]
      rfl
    · rw [List.flatMap_cons, Session.run_append]
      exact hrun

private theorem scope_conditionalOperations {s : Session} {parent : Frame} {outer : Scope}
    (hs : s.scope = parent :: outer) :
    ∃ current finished filled, finished ++ [(current, filled)] = c.arms ∧
      (s.run c.conditionalOperations).scope =
        ⟨indent, .branch current finished false, filled⟩ :: s.scope := by
  have htake : (s.take (.push (.opened indent (.branch c.condition [] false)))).scope =
      .opened indent (.branch c.condition [] false) :: s.scope := by
    rw [Session.scope_take, hs]
    rfl
  have hfilled := c.filling.scope_run _ htake rfl
  obtain ⟨current, finished, filled, harms, hrun⟩ := scope_further _ c.further hfilled
  refine ⟨current, finished, filled, harms, ?_⟩
  rw [conditionalOperations, Session.run_append]
  exact hrun

/-- The last arm can be started behind any arm that has a condition. -/
theorem scope_otherwise {s : Session} {parent : Frame} {outer : Scope}
    (hs : s.scope = parent :: outer) :
    (s.run (c.conditionalOperations ++ [.otherwise indent])).scope =
      ⟨indent, .branch "" c.arms true, []⟩ :: s.scope := by
  obtain ⟨current, finished, filled, harms, hrun⟩ := c.scope_conditionalOperations hs
  rw [← harms, Session.run_append]
  show ((s.run c.conditionalOperations).take (.otherwise indent)).scope = _
  rw [Session.scope_take, hrun]
  simp [Operation.perform, Operation.attempt, Scope.otherwise, Scope.modify, Frame.startArm]

/-- Behind all its arms, the conditional closes to the action that it stands for. -/
theorem scope_operations {s : Session} {parent : Frame} {outer : Scope}
    (hs : s.scope = parent :: outer) :
    ∃ block, block.indent = indent ∧ block.close = .action c.action ∧
      (s.run c.operations).scope = block :: s.scope := by
  have haction (last : List Action) : branchOfArms last c.arms =
      .branch c.condition c.filling.body (c.further.foldr
        (fun arm inner ↦ [.branch arm.1 arm.2.body inner]) last) := by
    rw [arms, branchOfArms, nestArms_eq_foldr, List.foldr_map]
  unfold operations action
  cases c.last with
  | none =>
    obtain ⟨current, finished, filled, harms, hrun⟩ := c.scope_conditionalOperations hs
    refine ⟨⟨indent, .branch current finished false, filled⟩, rfl, ?_, ?_⟩
    · rw [← harms] at haction
      exact congrArg Closed.action (haction [])
    · rw [Option.elim_none, List.append_nil, hrun]
  | some filling =>
    have hrun := filling.scope_run _ (c.scope_otherwise hs) rfl
    refine ⟨⟨indent, .branch "" c.arms true, filling.body⟩, rfl,
      congrArg Closed.action (haction filling.body), ?_⟩
    rw [Option.elim_some, ← List.singleton_append, ← List.append_assoc, Session.run_append]
    exact hrun

end Conditional

/-! ### Closing -/

/-- Whether an operation closes the innermost block if that stands at an indentation. -/
def Operation.closes (indent : Nat) : Operation → Bool
  | closeTo other => other ≤ indent
  | closeDeeper other => other < indent
  | closeAll => true
  | _ => false

/-- A control structure that is closed goes to the end of the block around it. -/
theorem Operation.attempt_closing {operation : Operation} {block : Frame} {action : Action}
    (hc : block.close = .action action) (h : operation.closes block.indent) (parent : Frame)
    (outer : Scope) :
    operation.attempt (block :: parent :: outer) = operation.attempt (parent.add action :: outer) ∧
    (operation.closes parent.indent = false →
      operation.attempt (parent.add action :: outer) = some ([], parent.add action :: outer)) := by
  have hclose (test : Nat → Bool) (ht : test block.indent) :
      closeWhile (fun frame ↦ test frame.indent) none (block :: parent :: outer) =
        closeWhile (fun frame ↦ test frame.indent) none (parent.add action :: outer) := by
    rw [closeWhile, Option.elim_none, if_pos ht, hc]
    rfl
  have hstays (test : Nat → Bool) (ht : test parent.indent = false) :
      closeWhile (fun frame ↦ test frame.indent) none (parent.add action :: outer) =
        ([], parent.add action :: outer) := by
    have hnot : ¬ test (parent.add action).indent = true := ne_true_of_eq_false ht
    rw [closeWhile, Option.elim_none, if_neg hnot]
  cases operation with
  | closeTo other =>
    exact ⟨congrArg some (hclose (fun own ↦ other ≤ own) h), fun hp ↦
      congrArg some (hstays (fun own ↦ other ≤ own) hp)⟩
  | closeDeeper other =>
    exact ⟨congrArg some (hclose (fun own ↦ other < own) h), fun hp ↦
      congrArg some (hstays (fun own ↦ other < own) hp)⟩
  | closeAll => exact ⟨congrArg some (hclose (fun _ ↦ true) h), fun hp ↦ by cases hp⟩
  | _ => cases h

/-- Inside a conditional whose last arm has been started, no arm at its indentation can be. -/
theorem Session.refuses_arm {s : Session} {indent : Nat} {condition : String} {arms : List Arm}
    {actions : List Action} {outer : Scope}
    (hs : s.scope = ⟨indent, .branch condition arms true, actions⟩ :: outer)
    {more : List Operation} (hm : ∀ operation ∈ more, operation.isInside indent false) :
    (∀ other, (Operation.elseIf indent other).attempt (s.run more).scope = none) ∧
      (Operation.otherwise indent).attempt (s.run more).scope = none := by
  obtain ⟨rest, added, hrest, hrun⟩ := run_inside hm [] (List.forall_mem_nil _)
  have hscope := hrun s _ outer hs rfl (fun hawaits ↦ by cases hawaits)
  have hunfit : ¬ ∃ current arms actions outer,
      (s.run more).scope = ⟨indent, .branch current arms false, actions⟩ :: outer := by
    rw [hscope]
    rintro ⟨current, others, body, around, he⟩
    cases rest with
    | nil => cases he
    | cons frame rest =>
      have hdeeper := (List.forall_mem_cons.mp hrest).1
      rw [(List.cons.inj he).1] at hdeeper
      exact Nat.lt_irrefl _ hdeeper
  exact ⟨fun other ↦ (Operation.attempt_eq_none_iff _ _).mpr hunfit,
    (Operation.attempt_eq_none_iff _ _).mpr hunfit⟩

/-- A conditional folds to the right. Wherever it is opened inside a block and however its arms are
filled, closing it is the same as adding one action to the end of that block and closing on: the
action whose alternatives are the further arms, one in the other, with the last, unconditional arm
innermost. If that block stays open, the action is all that is added. Once the last arm has been
started, no other arm of the conditional can be, whatever else is done inside it. -/
theorem Conditional.folds_right {indent : Nat} (c : Conditional indent) (parent : Frame)
    (outer : Scope) (roots : List Root) (accepted : List Operation) :
    let s : Session := ⟨parent :: outer, roots, accepted⟩
    (∀ closing : Operation, closing.closes indent →
      closing.attempt (s.run c.operations).scope = closing.attempt (parent.add c.action :: outer) ∧
      (closing.closes parent.indent = false →
        closing.attempt (s.run c.operations).scope = some ([], parent.add c.action :: outer))) ∧
    ∀ more : List Operation, (∀ operation ∈ more, operation.isInside indent false) →
      let t := s.run (c.conditionalOperations ++ .otherwise indent :: more)
      (∀ condition, (Operation.elseIf indent condition).attempt t.scope = none) ∧
        (Operation.otherwise indent).attempt t.scope = none := by
  intro s
  constructor
  · intro closing hcloses
    obtain ⟨block, rfl, hclose, hscope⟩ := c.scope_operations (s := s) rfl
    obtain ⟨hsame, hstays⟩ := Operation.attempt_closing hclose hcloses parent outer
    rw [hscope]
    exact ⟨hsame, fun hp ↦ hsame.trans (hstays hp)⟩
  · intro more hm
    rw [← List.singleton_append, ← List.append_assoc, Session.run_append]
    exact Session.refuses_arm (c.scope_otherwise rfl) hm

/-- A conditional with a loop in its first and in its last arm. -/
theorem Conditional.folds_right_nested :
    let looping : Filling 4 := ⟨[.push (.opened 8 (.loop "y")), .add (.assign "z" "1"),
      .closeDeeper 4], [.loop "y" [.assign "z" "1"]], by decide, by decide +kernel⟩
    let c : Conditional 4 := ⟨"u", looping, [("v", .plain 4 []), ("w", .plain 4 [.assign "z" "2"])],
      some looping⟩
    (Operation.closeTo 4).attempt
        (Session.run ⟨[.opened 0 (.event "A" "B")], [], []⟩ c.operations).scope =
      some ([], [⟨0, .event "A" "B", [.branch "u" [.loop "y" [.assign "z" "1"]]
        [.branch "v" [] [.branch "w" [.assign "z" "2"] [.loop "y" [.assign "z" "1"]]]]]⟩]) := by
  intro looping c
  exact ((c.folds_right (.opened 0 (.event "A" "B")) [] [] []).1 (.closeTo 4) rfl).2 rfl

end Blockwright.Script
