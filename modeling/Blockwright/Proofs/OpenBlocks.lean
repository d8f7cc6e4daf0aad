import Blockwright.Proofs.Walk
import Blockwright.Script.Assembly

/-!
# The walk over open blocks

Blocks that are still open are walked as if they were closed. Closing them leaves the walk as it
is, and everything that a line adds comes at its end: so the walk over a program being put
together only ever grows, whatever is closed on the way.
-/

namespace Blockwright.Script

open Blockwright.Script.Action

namespace Header

/-- The sort of root that a header opens, if it opens one. -/
def kind? : Header → Option RootKind
  | event .. => some .event
  | procedure .. => some .procedure
  | _ => none

/-- Whether a header is that of a conditional that may still take an arm. -/
def awaitsArm : Header → Bool
  | branch _ _ inElse => !inElse
  | _ => false

/-- What the node of a header says. -/
def node : Header → Node
  | event component occurrence => .event component occurrence
  | procedure name parameters => .procedure name parameters
  | branch condition _ _ => .branch condition
  | loop condition => .loop condition
  | forEach item list => .forEach item list

/-- A header as its line makes it: a conditional has no finished arm. -/
def Fresh : Header → Prop
  | branch _ arms inElse => arms = [] ∧ inElse = false
  | _ => True

/-- Roots are the blocks with a sort of root. -/
theorem isSome_kind? (header : Header) : header.kind?.isSome = header.isRoot := by
  cases header <;> rfl

end Header

namespace Closed

/-- The nodes of a closed block. -/
def nodes : Closed → List Node
  | root value => value.nodes
  | action value => value.nodes

/-- The visits of a closed block; a root lies in no branch. -/
def visits (start : Nat) (inside : Branch) : Closed → List Visit
  | root value => value.visits start
  | action value => value.visits start inside

@[simp] private theorem map_node_visits (start : Nat) (inside : Branch) (closed : Closed) :
    (closed.visits start inside).map Visit.node = closed.nodes := by
  cases closed with
  | root value => exact value.map_node_visits start
  | action value => exact Action.map_node_visits start inside value

@[simp] private theorem length_visits (start : Nat) (inside : Branch) (closed : Closed) :
    (closed.visits start inside).length = closed.nodes.length := by
  rw [← map_node_visits start inside closed, List.length_map]

end Closed

/-! ### One open block -/

namespace Frame

/-- The last, unconditional arm of a conditional follows at least one other. -/
def Sound (f : Frame) : Prop :=
  ∀ condition arms, f.header = .branch condition arms true → arms ≠ []

/-- The branch that further actions of an open block go to. -/
def filling (start : Nat) (inside : Branch) (f : Frame) : Branch :=
  match f.header with
  | .branch _ arms true => (armsEnd start inside arms).2
  | .branch _ arms false => .body (armsEnd start inside arms).1
  | _ => .body start

private theorem visits_branchOfArms (start : Nat) (inside : Branch) (last : List Action)
    {arms : List Arm} (h : arms ≠ []) :
    (Closed.action (branchOfArms last arms)).visits start inside =
      bodyVisits start inside (nestArms [] arms) ++
        bodyVisits (armsEnd start inside arms).1 (armsEnd start inside arms).2 last := by
  rw [← bodyVisits_nestArms, nestArms_eq_branchOfArms last h, bodyVisits_singleton]
  rfl

private theorem visits_close (start : Nat) (inside : Branch) {f : Frame} (h : f.Sound) :
    ∃ front : List Visit, ∀ actions : List Action,
      ({ f with actions } : Frame).close.visits start inside =
        front ++ bodyVisits (start + front.length) (f.filling start inside) actions := by
  obtain ⟨indent, header, own⟩ := f
  cases header with
  | event component event => exact ⟨[⟨.event component event, .top⟩], fun _ ↦ rfl⟩
  | procedure name parameters => exact ⟨[⟨.procedure name parameters, .top⟩], fun _ ↦ rfl⟩
  | loop condition => exact ⟨[⟨.loop condition, inside⟩], fun _ ↦ rfl⟩
  | forEach item list => exact ⟨[⟨.forEach item list, inside⟩], fun _ ↦ rfl⟩
  | branch condition arms inElse =>
    -- The finished arms come first, whatever fills the last one.
    let before := bodyVisits start inside (nestArms [] arms)
    have hb : start + before.length = (armsEnd start inside arms).1 := by
      rw [armsEnd_fst, ← map_node_bodyVisits start inside, List.length_map]
    cases inElse with
    | true =>
      refine ⟨before, fun actions ↦ ?_⟩
      rw [hb]
      exact visits_branchOfArms start inside actions (h condition arms rfl)
    | false =>
      refine ⟨before ++ [⟨.branch condition, (armsEnd start inside arms).2⟩], fun actions ↦ ?_⟩
      have ha : nestArms [] (arms ++ [(condition, actions)]) =
          nestArms [.branch condition actions []] arms := nestArms_append [] arms _
      rw [List.length_append, ← Nat.add_assoc, hb]
      show (Closed.action (branchOfArms [] (arms ++ [(condition, actions)]))).visits start inside
        = _
      rw [visits_branchOfArms _ _ _ (by simp), ha, bodyVisits_nestArms, bodyVisits_singleton,
        visits, bodyVisits, bodyVisits, List.append_nil, List.append_nil, List.append_assoc]
      rfl

/-- How a changed block shows in the walk: it adds visits at the end, and another branch may be
filled next. Both depend on where the walk stands behind the block and on the branch that was
being filled. -/
structure Turned (f g : Frame) (added : Nat → Branch → List Visit)
    (fill : Nat → Branch → Branch) : Prop where
  sound : g.Sound
  kind?_eq : g.header.kind? = f.header.kind?
  visits_eq : ∀ start inside, g.close.visits start inside = f.close.visits start inside ++
    added (start + f.close.nodes.length) (f.filling start inside)
  filling_eq : ∀ start inside,
    g.filling start inside = fill (start + f.close.nodes.length) (f.filling start inside)

/-- An action added to an open block is visited behind all that the block holds. -/
theorem turned_add {f : Frame} (h : f.Sound) (action : Action) :
    Turned f (f.add action) (fun position branch ↦ action.visits position branch)
      (fun _ branch ↦ branch) where
  sound := h
  kind?_eq := rfl
  visits_eq start inside := by
    obtain ⟨front, hf⟩ := visits_close start inside h
    have ho : f.close.visits start inside =
        front ++ bodyVisits (start + front.length) (f.filling start inside) f.actions :=
      hf f.actions
    have hn : f.close.nodes.length = front.length + (bodyNodes f.actions).length := by
      rw [← Closed.length_visits start inside, ho, List.length_append, ← map_node_bodyVisits,
        List.length_map]
    have ha := hf (f.actions ++ [action])
    rw [bodyVisits_append, bodyVisits_singleton, ← List.append_assoc, ← ho] at ha
    rw [hn, ← Nat.add_assoc]
    exact ha
  filling_eq _ _ := rfl

/-- What starting an arm makes of an open block, and when it can be started. -/
theorem startArm_eq_some_iff {indent : Nat} {condition : String} {last : Bool} {f g : Frame} :
    f.startArm indent condition last = some g ↔ ∃ current arms,
      f = ⟨indent, .branch current arms false, f.actions⟩ ∧
        g = ⟨indent, .branch condition (arms ++ [(current, f.actions)]) last, []⟩ := by
  obtain ⟨own, header, actions⟩ := f
  constructor
  · intro h
    unfold startArm at h
    split at h
    · next current arms hh =>
      split at h
      · next hi =>
        cases hh
        cases hi
        exact ⟨current, arms, rfl, (Option.some.inj h).symm⟩
      · cases h
    · cases h
  · rintro ⟨current, arms, hf, rfl⟩
    cases hf
    simp [startArm]

/-- An arm can be started in exactly the conditionals at its indentation that have not taken their
last one. -/
theorem isSome_startArm (indent : Nat) (condition : String) (last : Bool) (f : Frame) :
    (f.startArm indent condition last).isSome =
      (f.indent == indent && f.header.awaitsArm) := by
  obtain ⟨own, header, actions⟩ := f
  cases header with
  | branch current arms inElse =>
    cases inElse with
    | true => simp [startArm, Header.awaitsArm]
    | false => by_cases h : own = indent <;> simp [startArm, Header.awaitsArm, h]
  | _ => simp [startArm, Header.awaitsArm]

private theorem armsEnd_close (start : Nat) (inside : Branch) (indent : Nat) (current : String)
    (arms : List Arm) (actions : List Action) :
    armsEnd start inside (arms ++ [(current, actions)]) =
      (start + (close ⟨indent, .branch current arms false, actions⟩).nodes.length,
        .otherwise (armsEnd start inside arms).1) := by
  rw [armsEnd_concat]
  have hn : (close ⟨indent, .branch current arms false, actions⟩).nodes =
      bodyNodes (nestArms [] (arms ++ [(current, actions)])) := by
    rw [nestArms_eq_branchOfArms [] (by simp), bodyNodes_singleton]
    rfl
  have he := armsEnd_fst start inside (arms ++ [(current, actions)])
  rw [armsEnd_concat] at he
  rw [hn, ← he]

/-- A further arm is a node in the alternative beside the body filled so far, and its own body is
filled next. -/
theorem turned_elseIf {indent : Nat} {condition : String} {f g : Frame}
    (h : f.startArm indent condition false = some g) :
    Turned f g (fun _ branch ↦ [⟨.branch condition, branch.alternative⟩])
      (fun position _ ↦ .body position) := by
  obtain ⟨current, arms, hf, rfl⟩ := startArm_eq_some_iff.mp h
  refine ⟨fun _ _ he ↦ (by cases he), by rw [hf]; rfl, fun start inside ↦ ?_,
    fun start inside ↦ ?_⟩
  · show (Closed.action (branchOfArms [] ((arms ++ [(current, f.actions)]) ++
      [(condition, [])]))).visits start inside = _
    rw [branchOfArms_concat [] (by simp), visits_branchOfArms _ _ _ (by simp),
      armsEnd_close start inside indent, hf, nestArms_eq_branchOfArms [] (by simp),
      bodyVisits_singleton]
    rfl
  · show Branch.body (armsEnd start inside (arms ++ [(current, f.actions)])).1 = _
    rw [armsEnd_close start inside indent, ← hf]

/-- The last arm is no node of its own; the alternative beside the body filled so far is filled
next. -/
theorem turned_otherwise {indent : Nat} {f g : Frame} (h : f.startArm indent "" true = some g) :
    Turned f g (fun _ _ ↦ []) (fun _ branch ↦ branch.alternative) := by
  obtain ⟨current, arms, hf, rfl⟩ := startArm_eq_some_iff.mp h
  refine ⟨fun _ _ he ↦ ?_, by rw [hf]; rfl, fun start inside ↦ ?_, fun start inside ↦ ?_⟩
  · cases he
    simp
  · rw [hf, List.append_nil]
    rfl
  · show (armsEnd start inside (arms ++ [(current, f.actions)])).2 = _
    rw [armsEnd_concat, hf]
    rfl

private theorem kind?_header (f : Frame) :
    f.header.kind? = match f.close with
      | .root root => some root.kind
      | .action _ => none := by
  obtain ⟨indent, header, actions⟩ := f
  cases header with
  | branch condition arms inElse => cases inElse <;> rfl
  | _ => rfl

/-- A block that closes to an action is no root. -/
theorem isRoot_of_close {f : Frame} {action : Action} (h : f.close = .action action) :
    f.header.isRoot = false := by
  rw [← f.header.isSome_kind?, f.kind?_header, h]
  rfl

/-- A block just opened is sound. -/
theorem sound_opened (indent : Nat) {header : Header} (h : header.Fresh) :
    (opened indent header).Sound := by
  intro condition arms he
  change header = _ at he
  rw [he] at h
  cases h.2

/-- A block just opened is one node. -/
theorem visits_close_opened (start : Nat) (inside : Branch) (indent : Nat) {header : Header}
    (h : header.Fresh) :
    (opened indent header).close.visits start inside =
      [⟨header.node, if header.isRoot then .top else inside⟩] := by
  cases header with
  | event component occurrence => rfl
  | procedure name parameters => rfl
  | loop condition => rfl
  | forEach item list => rfl
  | branch condition arms inElse =>
    obtain ⟨rfl, rfl⟩ := h
    rfl

/-- The body of a block just opened is filled next. -/
theorem filling_opened (start : Nat) (inside : Branch) (indent : Nat) {header : Header}
    (h : header.Fresh) : (opened indent header).filling start inside = .body start := by
  cases header with
  | event component occurrence => rfl
  | procedure name parameters => rfl
  | loop condition => rfl
  | forEach item list => rfl
  | branch condition arms inElse =>
    obtain ⟨rfl, rfl⟩ := h
    rfl

end Frame

/-! ### All open blocks -/

/-- What later lines see of an open block: its indentation, whether it may take an arm, and the
branch being filled. -/
structure Slot where
  indent : Nat
  awaitsArm : Bool
  branch : Branch
  deriving DecidableEq, Repr

namespace Scope

/-- The outermost block is a root and the others are not, and every block is sound. -/
def Nested : Scope → Prop
  | [] => True
  | frame :: outer => frame.Sound ∧ frame.header.isRoot = outer.isEmpty ∧ Nested outer

/-- The nodes of open blocks. -/
def nodes : Scope → List Node
  | [] => []
  | frame :: outer => nodes outer ++ frame.close.nodes

/-- The branch being filled in the innermost block, when the walk over the blocks begins at
`start`. -/
def filling (start : Nat) : Scope → Branch
  | [] => .top
  | frame :: outer => frame.filling (start + (nodes outer).length) (filling start outer)

/-- The visits of open blocks. -/
def visits (start : Nat) : Scope → List Visit
  | [] => []
  | frame :: outer =>
    visits start outer ++
      frame.close.visits (start + (nodes outer).length) (filling start outer)

/-- The open blocks as later lines see them. -/
def slots (start : Nat) : Scope → List Slot
  | [] => []
  | frame :: outer =>
    ⟨frame.indent, frame.header.awaitsArm, filling start (frame :: outer)⟩ :: slots start outer

/-- The sort of the root that is open, if there is one. -/
def kind? (scope : Scope) : Option RootKind := scope.findSome? (fun frame ↦ frame.header.kind?)

/-- The innermost block with an action that is carried into it. -/
def receive (carried : Option Action) : Scope → Scope
  | [] => []
  | frame :: outer => carried.elim frame frame.add :: outer

/-- Without an action to carry, nothing changes. -/
@[simp] theorem receive_none (scope : Scope) : receive none scope = scope := by
  cases scope <;> rfl

@[simp] private theorem map_node_visits (start : Nat) (scope : Scope) :
    (visits start scope).map Visit.node = nodes scope := by
  induction scope with
  | nil => rfl
  | cons frame outer ih => rw [visits, nodes, List.map_append, ih, Closed.map_node_visits]

/-- There are as many visits of open blocks as nodes. -/
@[simp] theorem length_visits (start : Nat) (scope : Scope) :
    (visits start scope).length = (nodes scope).length := by
  rw [← map_node_visits start scope, List.length_map]

/-- A change of the innermost block adds its visits at the end. -/
theorem visits_turned (start : Nat) {frame next : Frame} (outer : Scope)
    {added : Nat → Branch → List Visit} {fill : Nat → Branch → Branch}
    (h : frame.Turned next added fill) :
    visits start (next :: outer) = visits start (frame :: outer) ++
      added (start + (nodes (frame :: outer)).length) (filling start (frame :: outer)) := by
  rw [visits, visits, h.visits_eq, nodes, List.length_append, List.append_assoc, Nat.add_assoc]
  rfl

/-- A change of the innermost block fills the branch that the change says. -/
theorem filling_turned (start : Nat) {frame next : Frame} (outer : Scope)
    {added : Nat → Branch → List Visit} {fill : Nat → Branch → Branch}
    (h : frame.Turned next added fill) :
    filling start (next :: outer) = fill (start + (nodes (frame :: outer)).length)
      (filling start (frame :: outer)) := by
  rw [filling, h.filling_eq, nodes, List.length_append, Nat.add_assoc]
  rfl

@[simp] private theorem slots_receive (start : Nat) (carried : Option Action) (scope : Scope) :
    slots start (receive carried scope) = slots start scope := by
  cases scope with
  | nil => rfl
  | cons frame outer => cases carried <;> rfl

private theorem Nested.receive {scope : Scope} (h : Nested scope) (carried : Option Action) :
    Nested (receive carried scope) := by
  cases scope with
  | nil => exact h
  | cons frame outer => cases carried <;> exact h

@[simp] private theorem kind?_receive (carried : Option Action) (scope : Scope) :
    kind? (receive carried scope) = kind? scope := by
  cases scope with
  | nil => rfl
  | cons frame outer => cases carried <;> rfl

/-- Nested blocks are inside a root, if there are any. -/
theorem Nested.isSome_kind? {scope : Scope} (h : Nested scope) :
    (kind? scope).isSome = !scope.isEmpty := by
  induction scope with
  | nil => rfl
  | cons frame outer ih =>
    have hk := frame.header.isSome_kind?
    rw [kind?, List.findSome?_cons]
    split
    · rfl
    · next hn =>
      rw [hn, h.2.1] at hk
      have ho := ih h.2.2
      rw [kind?, ← hk] at ho
      exact ho

/-- What closing makes of nested blocks. Either the root stays open, or it is closed with all that
is inside it and nothing is left open; no visit is lost, doubled or moved. -/
inductive Settled (scope : Scope) : List Root × Scope → Prop where
  /-- The root stays open. -/
  | kept (rest : Scope) (visits_eq : ∀ start, visits start rest = visits start scope)
    (kind?_eq : kind? rest = kind? scope) : Settled scope ([], rest)
  /-- The root is closed. -/
  | closed (root : Root) (visits_eq : ∀ start, root.visits start = visits start scope)
    (kind?_eq : some root.kind = kind? scope) : Settled scope ([root], [])

private theorem Settled.trans {first second : Scope} {result : List Root × Scope}
    (h : Settled first result) (hv : ∀ start, visits start first = visits start second)
    (hk : kind? first = kind? second) : Settled second result := by
  cases h with
  | kept rest hv' hk' => exact .kept rest (fun start ↦ (hv' start).trans (hv start)) (hk'.trans hk)
  | closed root hv' hk' =>
    exact .closed root (fun start ↦ (hv' start).trans (hv start)) (hk'.trans hk)

private theorem visits_receive (start : Nat) {frame : Frame} {action : Action} {outer : Scope}
    (hc : frame.close = .action action) (ho : outer ≠ []) (h : Nested outer) :
    visits start (receive (some action) outer) = visits start (frame :: outer) := by
  cases outer with
  | nil => exact absurd rfl ho
  | cons parent outer =>
    show visits start (parent.add action :: outer) = _
    rw [visits_turned start outer (parent.turned_add h.1 action), visits.eq_2 start frame, hc]
    rfl

/-- Closing loses nothing. -/
theorem settled_closeWhile (test : Frame → Bool) (carried : Option Action) {scope : Scope}
    (h : Nested scope) : Settled (receive carried scope) (closeWhile test carried scope) := by
  fun_induction closeWhile test carried scope with
  | case1 carried => exact .kept [] (fun _ ↦ rfl) rfl
  | case2 carried frame outer first ht root hc roots rest hr ih =>
    have hn : Nested (first :: outer) := h.receive carried
    have hk := first.kind?_header
    rw [hc] at hk
    -- Only the outermost block is a root.
    have ho : outer = [] := by
      have hi := hn.2.1
      rw [← first.header.isSome_kind?, hk] at hi
      exact List.isEmpty_iff.mp hi.symm
    subst ho
    cases hr
    refine .closed root (fun start ↦ ?_) ?_
    · show _ = [] ++ first.close.visits start .top
      rw [hc]
      rfl
    · show _ = List.findSome? _ [first]
      rw [List.findSome?_cons, hk]
  | case3 carried frame outer first ht action hc ih =>
    have hn : Nested (first :: outer) := h.receive carried
    have hk := first.kind?_header
    rw [hc] at hk
    -- A control structure stands in a block, and that receives the action it closes to.
    have ho : outer ≠ [] := by
      have hi := hn.2.1
      rw [Frame.isRoot_of_close hc] at hi
      intro he
      rw [he] at hi
      cases hi
    apply (ih h.2.2).trans
    · intro start
      exact visits_receive start hc ho h.2.2
    · rw [kind?_receive]
      show _ = List.findSome? _ (first :: outer)
      rw [List.findSome?_cons, hk]
      rfl
  | case4 carried frame outer first ht => exact .kept _ (fun _ ↦ rfl) rfl

/-- Closing leaves nested blocks. -/
theorem Nested.closeWhile (test : Frame → Bool) (carried : Option Action) {scope : Scope}
    (h : Nested scope) : Nested (closeWhile test carried scope).2 := by
  fun_induction Scope.closeWhile test carried scope with
  | case1 carried => exact h
  | case2 carried frame outer first ht root hc roots rest hr ih =>
    have := ih h.2.2
    rwa [hr] at this
  | case3 carried frame outer first ht action hc ih => exact ih h.2.2
  | case4 carried frame outer first ht => exact h.receive carried

/-- Closing takes away the blocks that pass the test, from the inside. -/
theorem slots_closeWhile (start : Nat) (test : Nat → Bool) (carried : Option Action)
    (scope : Scope) :
    slots start (closeWhile (fun frame ↦ test frame.indent) carried scope).2 =
      (slots start scope).dropWhile (fun slot ↦ test slot.indent) := by
  have hi (frame : Frame) (carried : Option Action) :
      (carried.elim frame frame.add).indent = frame.indent := by cases carried <;> rfl
  fun_induction closeWhile (fun frame ↦ test frame.indent) carried scope with
  | case1 carried => rfl
  | case2 carried frame outer first ht root hc roots rest hr ih =>
    rw [hi] at ht
    rw [slots, List.dropWhile_cons, if_pos ht, ← ih, hr]
  | case3 carried frame outer first ht action hc ih =>
    rw [hi] at ht
    rw [slots, List.dropWhile_cons, if_pos ht, ih]
  | case4 carried frame outer first ht =>
    rw [hi] at ht
    show slots start (receive carried (frame :: outer)) = _
    rw [slots_receive, slots, List.dropWhile_cons, if_neg ht]

end Scope

end Blockwright.Script
