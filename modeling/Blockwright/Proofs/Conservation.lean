import Blockwright.Proofs.OpenBlocks

/-!
# Nothing is lost from open blocks

Open blocks may be used in any order: blocks of any sort are opened at any indentation, also with
actions and arms already in them, and they are filled, given arms and closed. Whatever is done, the
outermost block is a root, so that a control structure that is closed always has a block around it
to go to. Hence an action that was accepted is in an open block or in a root that was handed back,
and an operation that is refused changes nothing.
-/

namespace Blockwright.Script

open scoped List

/-! ### Operations -/

/-- One use of the open blocks. -/
inductive Operation where
  | push (frame : Frame)
  | add (action : Action)
  | closeTo (indent : Nat)
  | closeDeeper (indent : Nat)
  | closeAll
  | elseIf (indent : Nat) (condition : String)
  | otherwise (indent : Nat)
  deriving DecidableEq, Repr

/-- The roots that an operation hands back and the blocks that it leaves open, or nothing if it is
refused. -/
def Operation.attempt : Operation → Scope → Option (List Root × Scope)
  | push frame, scope => (scope.push frame).map ([], ·)
  | add action, scope => (scope.add action).map ([], ·)
  | closeTo indent, scope => some (scope.closeTo indent)
  | closeDeeper indent, scope => some (scope.closeDeeper indent)
  | closeAll, scope => some scope.closeAll
  | elseIf indent condition, scope => (scope.elseIf indent condition).map ([], ·)
  | otherwise indent, scope => (scope.otherwise indent).map ([], ·)

/-- Open blocks with their history: the roots handed back so far and the operations accepted so
far, both in order. -/
structure Session where
  scope : Scope
  roots : List Root
  accepted : List Operation
  deriving DecidableEq, Repr

namespace Session

/-- No block is open and nothing has happened. -/
def empty : Session := ⟨[], [], []⟩

/-- Does an operation, unless it is refused. -/
def take (s : Session) (operation : Operation) : Session :=
  match operation.attempt s.scope with
  | some (roots, scope) => ⟨scope, s.roots ++ roots, s.accepted ++ [operation]⟩
  | none => s

/-- Does operations in order. -/
def run (s : Session) (operations : List Operation) : Session := operations.foldl take s

end Session

/-! ### Refusals -/

namespace Operation

/-- When an operation is refused: a control structure needs a block around it, an action a block to
go to, and an arm the innermost block to be a conditional at its indentation that has not taken its
last arm. -/
def Unfit (scope : Scope) : Operation → Prop
  | push frame => scope = [] ∧ frame.header.isRoot = false
  | add _ => scope = []
  | elseIf indent _ | otherwise indent => ¬ ∃ condition arms actions outer,
      scope = ⟨indent, .branch condition arms false, actions⟩ :: outer
  | closeTo _ | closeDeeper _ | closeAll => False

private theorem startArm_eq_none_iff (scope : Scope) (indent : Nat) (given : String)
    (last : Bool) :
    scope.modify (Frame.startArm indent given last) = none ↔ ¬ ∃ condition arms actions outer,
      scope = ⟨indent, .branch condition arms false, actions⟩ :: outer := by
  cases scope with
  | nil => simp [Scope.modify]
  | cons frame outer =>
    rw [Scope.modify, Option.map_eq_none_iff, ← Option.not_isSome_iff_eq_none,
      Frame.isSome_startArm]
    apply not_congr
    obtain ⟨own, header, actions⟩ := frame
    constructor
    · intro hfit
      rw [Bool.and_eq_true, beq_iff_eq] at hfit
      obtain ⟨rfl, hawaits⟩ := hfit
      cases header with
      | branch condition arms inElse =>
        cases inElse with
        | false => exact ⟨condition, arms, actions, outer, rfl⟩
        | true => cases hawaits
      | _ => cases hawaits
    · rintro ⟨condition, arms, actions, outer, he⟩
      cases he
      simp [Header.awaitsArm]

/-- An operation is refused exactly when it is unfit. -/
theorem attempt_eq_none_iff (operation : Operation) (scope : Scope) :
    operation.attempt scope = none ↔ operation.Unfit scope := by
  cases operation with
  | push frame => simp [attempt, Unfit, Scope.push]
  | add action => cases scope <;> simp [attempt, Unfit, Scope.add]
  | elseIf indent condition =>
    rw [attempt, Option.map_eq_none_iff]
    exact startArm_eq_none_iff scope indent condition false
  | otherwise indent =>
    rw [attempt, Option.map_eq_none_iff]
    exact startArm_eq_none_iff scope indent "" true
  | closeTo | closeDeeper | closeAll => simp [attempt, Unfit]

end Operation

/-! ### Leaves -/

namespace Action

mutual

/-- The actions in an action that hold no others. -/
def leaves : Action → List Action
  | setProperty component property value => [setProperty component property value]
  | assign target value => [assign target value]
  | call component method arguments => [call component method arguments]
  | define target value => [define target value]
  | branch _ body otherwise => bodyLeaves body ++ bodyLeaves otherwise
  | loop _ body => bodyLeaves body
  | forEach _ _ body => bodyLeaves body

/-- The actions at any depth of a body that hold no others. -/
def bodyLeaves : List Action → List Action
  | [] => []
  | action :: actions => leaves action ++ bodyLeaves actions

end

private theorem bodyLeaves_append (first second : List Action) :
    bodyLeaves (first ++ second) = bodyLeaves first ++ bodyLeaves second := by
  induction first with
  | nil => rfl
  | cons action actions ih => rw [List.cons_append, bodyLeaves, bodyLeaves, ih, List.append_assoc]

private theorem bodyLeaves_singleton (action : Action) : bodyLeaves [action] = leaves action := by
  rw [bodyLeaves, bodyLeaves, List.append_nil]

end Action

open Blockwright.Script.Action

/-- The leaves in the finished arms of a conditional. -/
def Header.leaves : Header → List Action
  | branch _ arms _ => arms.flatMap (fun arm ↦ bodyLeaves arm.2)
  | _ => []

/-- The leaves of a root. -/
def Root.leaves : Root → List Action
  | event value => bodyLeaves value.actions
  | procedure value => bodyLeaves value.actions

/-- The leaves of a closed block. -/
def Closed.leaves : Closed → List Action
  | root value => value.leaves
  | action value => value.leaves

/-- The leaves in the arms and the body of an open block. -/
def Frame.leaves (f : Frame) : List Action := f.header.leaves ++ bodyLeaves f.actions

/-- The leaves in all open blocks. -/
def Scope.leaves (scope : Scope) : List Action := scope.flatMap Frame.leaves

/-- The leaves that an operation brings along. -/
def Operation.leaves : Operation → List Action
  | push frame => frame.leaves
  | add action => action.leaves
  | _ => []

private theorem bodyLeaves_nestArms (last : List Action) (arms : List Arm) :
    bodyLeaves (nestArms last arms) =
      arms.flatMap (fun arm ↦ bodyLeaves arm.2) ++ bodyLeaves last := by
  induction arms with
  | nil => rfl
  | cons arm arms ih =>
    rw [nestArms, bodyLeaves_singleton, Action.leaves, ih, List.flatMap_cons, List.append_assoc]

private theorem leaves_branchOfArms (last : List Action) (arms : List Arm) :
    (branchOfArms last arms).leaves =
      arms.flatMap (fun arm ↦ bodyLeaves arm.2) ++ bodyLeaves last := by
  cases arms with
  | nil => rfl
  | cons arm arms =>
    rw [← bodyLeaves_nestArms, nestArms_eq_branchOfArms _ (List.cons_ne_nil _ _),
      bodyLeaves_singleton]

namespace Frame

private theorem leaves_close (f : Frame) : f.close.leaves = f.leaves := by
  obtain ⟨indent, header, actions⟩ := f
  cases header with
  | branch condition arms inElse =>
    cases inElse with
    | true => exact leaves_branchOfArms actions arms
    | false =>
      show (branchOfArms [] (arms ++ [(condition, actions)])).leaves = _
      rw [leaves_branchOfArms, List.flatMap_append, List.flatMap_singleton, bodyLeaves,
        List.append_nil]
      rfl
  | _ => rfl

private theorem leaves_add (f : Frame) (action : Action) :
    (f.add action).leaves = f.leaves ++ action.leaves := by
  rw [leaves, leaves, add, bodyLeaves_append, bodyLeaves_singleton, List.append_assoc]

/-- A new arm keeps where a block stands, of what sort it is, and its leaves. -/
theorem startArm_keeps {indent : Nat} {condition : String} {last : Bool} {f g : Frame}
    (h : f.startArm indent condition last = some g) :
    g.indent = f.indent ∧ g.header.isRoot = f.header.isRoot ∧ g.leaves = f.leaves := by
  obtain ⟨current, arms, hf, rfl⟩ := startArm_eq_some_iff.mp h
  have hleaves : leaves ⟨indent, .branch condition (arms ++ [(current, f.actions)]) last, []⟩ =
      leaves ⟨indent, .branch current arms false, f.actions⟩ := by
    simp [leaves, Header.leaves, bodyLeaves]
  refine ⟨by rw [hf], by rw [hf]; rfl, ?_⟩
  rw [hleaves, ← hf]

end Frame

/-! ### Closing -/

namespace Scope

/-- The outermost block is a root. -/
def Rooted (scope : Scope) : Prop := ∀ frame ∈ scope.getLast?, frame.header.isRoot

variable {frame next : Frame} {outer scope : Scope}

private theorem Rooted.isRoot (h : Rooted [frame]) : frame.header.isRoot := h frame rfl

private theorem rooted_cons_cons : Rooted (next :: frame :: outer) ↔ Rooted (frame :: outer) := by
  rw [Rooted, Rooted, List.getLast?_cons_cons]

private theorem Rooted.tail (h : Rooted (frame :: outer)) : Rooted outer := by
  cases outer with
  | nil => exact fun _ hm ↦ by cases hm
  | cons parent outer => exact rooted_cons_cons.mp h

private theorem Rooted.replace (h : Rooted (frame :: outer))
    (hr : next.header.isRoot = frame.header.isRoot) : Rooted (next :: outer) := by
  cases outer with
  | nil =>
    intro other hm
    cases hm
    exact hr.trans h.isRoot
  | cons parent outer => exact rooted_cons_cons.mpr (rooted_cons_cons.mp h)

private theorem Rooted.receive (h : Rooted scope) (carried : Option Action) :
    Rooted (receive carried scope) := by
  cases scope with
  | nil => exact h
  | cons frame outer => cases carried <;> exact h.replace rfl

private theorem Rooted.exists_parent (h : Rooted (frame :: outer)) {action : Action}
    (hc : frame.close = .action action) : ∃ parent rest, outer = parent :: rest := by
  cases outer with
  | nil =>
    have hroot := h.isRoot
    rw [Frame.isRoot_of_close hc] at hroot
    cases hroot
  | cons parent rest => exact ⟨parent, rest, rfl⟩

private theorem Rooted.closeWhile (h : Rooted scope) (test : Frame → Bool)
    (carried : Option Action) :
    Rooted (closeWhile test carried scope).2 := by
  fun_induction Scope.closeWhile test carried scope with
  | case1 carried => exact h
  | case2 carried frame outer first ht root hc roots rest hr ih =>
    have hrest := ih h.tail
    rwa [hr] at hrest
  | case3 carried frame outer first ht action hc ih => exact ih h.tail
  | case4 carried frame outer first ht => exact h.receive carried

private theorem leaves_receive_close (parent : Frame) {action : Action}
    (hc : frame.close = .action action) (rest : Scope) :
    leaves (receive (some action) (parent :: rest)) ~ leaves (frame :: parent :: rest) := by
  have haction : action.leaves = frame.leaves := by
    rw [← frame.leaves_close, hc]
    rfl
  calc leaves (parent.add action :: rest)
    _ = (parent.leaves ++ frame.leaves) ++ leaves rest := by
      rw [leaves, List.flatMap_cons, Frame.leaves_add, haction]
      rfl
    _ ~ (frame.leaves ++ parent.leaves) ++ leaves rest := List.perm_append_comm.append_right _
    _ = leaves (frame :: parent :: rest) := List.append_assoc ..

private theorem leaves_closeWhile (h : Rooted scope) (test : Frame → Bool)
    (carried : Option Action) :
    (closeWhile test carried scope).2.leaves ++
      (closeWhile test carried scope).1.flatMap Root.leaves ~ (receive carried scope).leaves := by
  fun_induction closeWhile test carried scope with
  | case1 carried => exact .refl _
  | case2 carried frame outer first ht root hc roots rest hr ih =>
    have hrest := ih h.tail
    rw [hr, receive_none] at hrest
    have hroot : root.leaves = first.leaves := by
      rw [← first.leaves_close, hc]
      rfl
    calc rest.leaves ++ (root.leaves ++ roots.flatMap Root.leaves)
      _ ~ root.leaves ++ (rest.leaves ++ roots.flatMap Root.leaves) :=
        List.perm_append_comm_assoc ..
      _ ~ root.leaves ++ leaves outer := hrest.append_left _
      _ = leaves (first :: outer) := by
        rw [hroot]
        rfl
  | case3 carried frame outer first ht action hc ih =>
    -- Without a block around it, the leaves of the action would be lost.
    obtain ⟨parent, rest, rfl⟩ := Rooted.exists_parent (h.receive carried) hc
    exact (ih h.tail).trans (leaves_receive_close parent hc rest)
  | case4 carried frame outer first ht =>
    rw [List.flatMap_nil, List.append_nil]
    exact .refl _

end Scope

/-! ### Histories -/

open Scope

private theorem perm_append_right_comm (first second third : List Action) :
    first ++ second ++ third ~ first ++ third ++ second := by
  rw [List.append_assoc, List.append_assoc]
  exact List.perm_append_comm.append_left first

/-- What an accepted operation that brings some leaves along can do: open a block, change the
innermost one, or close some. -/
inductive Operation.Does (scope : Scope) (brought : List Action) : List Root × Scope → Prop where
  | opens (frame : Frame) (isRoot : scope = [] → frame.header.isRoot)
    (leaves_eq : frame.leaves = brought) : Does scope brought ([], frame :: scope)
  | changes {frame : Frame} (next : Frame) {outer : Scope} (scope_eq : scope = frame :: outer)
    (isRoot_eq : next.header.isRoot = frame.header.isRoot)
    (leaves_eq : next.leaves = frame.leaves ++ brought) : Does scope brought ([], next :: outer)
  | closes (test : Frame → Bool) (brought_eq : brought = []) :
    Does scope brought (closeWhile test none scope)

namespace Operation

variable {operation : Operation} {scope : Scope} {result : List Root × Scope}

private theorem does_of_startArm {indent : Nat} {condition : String} {last : Bool}
    (h : (scope.modify (Frame.startArm indent condition last)).map ([], ·) = some result) :
    Does scope [] result := by
  cases scope with
  | nil => cases h
  | cons frame outer =>
    obtain ⟨changed, hm, rfl⟩ := Option.map_eq_some_iff.mp h
    obtain ⟨next, hn, rfl⟩ := Option.map_eq_some_iff.mp hm
    obtain ⟨-, hroot, hleaves⟩ := Frame.startArm_keeps hn
    exact .changes next rfl hroot (hleaves.trans (List.append_nil _).symm)

private theorem does_of_attempt (h : operation.attempt scope = some result) :
    Does scope operation.leaves result := by
  cases operation with
  | push frame =>
    obtain ⟨opened, hp, rfl⟩ := Option.map_eq_some_iff.mp h
    unfold Scope.push at hp
    split at hp
    · cases hp
    · next hfit =>
      cases hp
      refine .opens frame ?_ rfl
      rintro rfl
      simpa using hfit
  | add action =>
    cases scope with
    | nil => cases h
    | cons frame outer =>
      cases h
      exact .changes _ rfl rfl (frame.leaves_add action)
  | elseIf indent condition => exact does_of_startArm h
  | otherwise indent => exact does_of_startArm h
  | closeTo | closeDeeper | closeAll =>
    rw [← Option.some.inj h]
    exact .closes _ rfl

namespace Does

variable {brought : List Action}

private theorem rooted (h : Does scope brought result) (hs : Rooted scope) : Rooted result.2 := by
  cases h with
  | opens frame hroot =>
    cases scope with
    | nil =>
      intro other hm
      cases hm
      exact hroot rfl
    | cons parent outer => exact rooted_cons_cons.mpr hs
  | changes next he hroot =>
    rw [he] at hs
    exact hs.replace hroot
  | closes test => exact hs.closeWhile test none

private theorem leaves (h : Does scope brought result) (hs : Rooted scope) :
    result.2.leaves ++ result.1.flatMap Root.leaves ~ scope.leaves ++ brought := by
  cases h with
  | opens frame _ he =>
    rw [← he, List.flatMap_nil, List.append_nil]
    exact List.perm_append_comm
  | @changes frame next outer he _ hleaves =>
    rw [List.flatMap_nil, List.append_nil, he]
    calc Scope.leaves (next :: outer)
      _ = frame.leaves ++ brought ++ Scope.leaves outer := by
        rw [Scope.leaves, List.flatMap_cons, hleaves]
        rfl
      _ ~ frame.leaves ++ Scope.leaves outer ++ brought := perm_append_right_comm ..
  | closes test he =>
    have hclose := leaves_closeWhile hs test none
    rw [receive_none] at hclose
    rwa [he, List.append_nil]

end Does

end Operation

namespace Session

/-- What holds of every history: the outermost block is a root, and the leaves that accepted
operations brought along are in open blocks and in returned roots. -/
structure Balanced (s : Session) : Prop where
  rooted : s.scope.Rooted
  perm : s.accepted.flatMap Operation.leaves ~ s.scope.leaves ++ s.roots.flatMap Root.leaves

/-- Every operation keeps the balance. -/
theorem Balanced.take {s : Session} (h : s.Balanced) (operation : Operation) :
    (s.take operation).Balanced := by
  unfold Session.take
  split
  · next roots scope ha =>
    have hdoes := Operation.does_of_attempt ha
    refine ⟨hdoes.rooted h.rooted, ?_⟩
    calc (s.accepted ++ [operation]).flatMap Operation.leaves
      _ = s.accepted.flatMap Operation.leaves ++ operation.leaves := by
        rw [List.flatMap_append, List.flatMap_singleton]
      _ ~ s.scope.leaves ++ s.roots.flatMap Root.leaves ++ operation.leaves :=
        h.perm.append_right _
      _ ~ s.scope.leaves ++ operation.leaves ++ s.roots.flatMap Root.leaves :=
        perm_append_right_comm ..
      _ ~ scope.leaves ++ roots.flatMap Root.leaves ++ s.roots.flatMap Root.leaves :=
        (hdoes.leaves h.rooted).symm.append_right _
      _ ~ scope.leaves ++ s.roots.flatMap Root.leaves ++ roots.flatMap Root.leaves :=
        perm_append_right_comm ..
      _ = scope.leaves ++ (s.roots ++ roots).flatMap Root.leaves := by
        rw [List.flatMap_append, List.append_assoc]
  · exact h

/-- So do any operations. -/
theorem Balanced.run {s : Session} (h : s.Balanced) (operations : List Operation) :
    (s.run operations).Balanced := by
  induction operations generalizing s with
  | nil => exact h
  | cons operation operations ih => exact ih (h.take operation)

/-- A refused operation changes nothing. -/
theorem take_of_refused {s : Session} {operation : Operation}
    (h : operation.attempt s.scope = none) : s.take operation = s := by
  rw [take, h]

/-- Whatever is done with open blocks, the outermost one is a root, and the leaves that accepted
operations brought along are, counted with their repetitions, those in open blocks and in returned
roots. An operation is refused exactly when it is unfit, and then it changes nothing. -/
theorem conserves_leaves (operations : List Operation) :
    let s := empty.run operations
    (∀ frame ∈ s.scope.getLast?, frame.header.isRoot) ∧
    s.accepted.flatMap Operation.leaves ~ s.scope.leaves ++ s.roots.flatMap Root.leaves ∧
    ∀ operation : Operation,
      (operation.attempt s.scope = none ↔ operation.Unfit s.scope) ∧
      (operation.attempt s.scope = none → s.take operation = s) := by
  intro s
  have hempty : empty.Balanced := ⟨fun _ hm ↦ (by cases hm), .refl _⟩
  have hs : s.Balanced := hempty.run operations
  exact ⟨hs.rooted, hs.perm, fun operation ↦
    ⟨operation.attempt_eq_none_iff s.scope, take_of_refused⟩⟩

example :
    let s := empty.run [.push ⟨0, .loop "x", []⟩, .push ⟨4, .event "A" "B", []⟩,
      .push ⟨2, .branch "y" [] true, [.assign "z" "1"]⟩, .closeDeeper 1]
    s.roots = [.event ⟨"A", "B", [.branch "" [] [.assign "z" "1"]]⟩] ∧ s.accepted.length = 3 := by
  decide +kernel

end Session

end Blockwright.Script
