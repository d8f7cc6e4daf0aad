import Blockwright.Script.Scope

/-!
# Walking the tree of a program

Handlers and procedures hold actions, and control structures hold further ones. A walk visits
every node before the nodes inside it, and the body of a conditional before its alternative.
Every visit notes the branch that the node lies in; a branch is named by the position of its node
in the walk, so nodes that say the same stay apart.
-/

namespace Blockwright.Script

/-- What a node of a program's tree says, without the actions inside it. -/
inductive Node where
  | event (component event : String)
  | procedure (name : String) (parameters : List String)
  | setProperty (component property value : String)
  | assign (target value : String)
  | call (component method : String) (arguments : List String)
  | define (target value : String)
  | branch (condition : String)
  | loop (condition : String)
  | forEach (item list : String)
  deriving DecidableEq, Repr

/-- The place directly around a node in a walk. -/
inductive Branch where
  /-- Outside of every node, where handlers and procedures are. -/
  | top
  /-- The actions of the node visited at a position. -/
  | body (position : Nat)
  /-- The alternative actions of the conditional visited at a position. -/
  | otherwise (position : Nat)
  deriving DecidableEq, Repr

/-- The alternative beside a body. -/
def Branch.alternative : Branch → Branch
  | body position => otherwise position
  | other => other

/-- A node with the branch that directly holds it. -/
structure Visit where
  node : Node
  inside : Branch
  deriving DecidableEq, Repr

/-! ### Actions -/

namespace Action

mutual

/-- The nodes of an action, each before the nodes inside it. -/
def nodes : Action → List Node
  | setProperty component property value => [.setProperty component property value]
  | assign target value => [.assign target value]
  | call component method arguments => [.call component method arguments]
  | define target value => [.define target value]
  | branch condition body otherwise =>
    .branch condition :: (bodyNodes body ++ bodyNodes otherwise)
  | loop condition body => .loop condition :: bodyNodes body
  | forEach item list body => .forEach item list :: bodyNodes body

/-- The nodes of the actions of a body. -/
def bodyNodes : List Action → List Node
  | [] => []
  | action :: actions => nodes action ++ bodyNodes actions

end

mutual

/-- The visits of an action that lies inside a branch, when the walk stands at `start`. -/
def visits (start : Nat) (inside : Branch) : Action → List Visit
  | setProperty component property value => [⟨.setProperty component property value, inside⟩]
  | assign target value => [⟨.assign target value, inside⟩]
  | call component method arguments => [⟨.call component method arguments, inside⟩]
  | define target value => [⟨.define target value, inside⟩]
  | branch condition body otherwise =>
    ⟨.branch condition, inside⟩ :: (bodyVisits (start + 1) (.body start) body ++
      bodyVisits (start + 1 + (bodyNodes body).length) (.otherwise start) otherwise)
  | loop condition body =>
    ⟨.loop condition, inside⟩ :: bodyVisits (start + 1) (.body start) body
  | forEach item list body =>
    ⟨.forEach item list, inside⟩ :: bodyVisits (start + 1) (.body start) body

/-- The visits of the actions of a body. -/
def bodyVisits (start : Nat) (inside : Branch) : List Action → List Visit
  | [] => []
  | action :: actions =>
    visits start inside action ++ bodyVisits (start + (nodes action).length) inside actions

end

mutual

/-- The visits of an action see its nodes. -/
@[simp] theorem map_node_visits (start : Nat) (inside : Branch) (action : Action) :
    (visits start inside action).map Visit.node = nodes action := by
  cases action with
  | setProperty component property value => rfl
  | assign target value => rfl
  | call component method arguments => rfl
  | define target value => rfl
  | branch condition body otherwise =>
    rw [visits, nodes, List.map_cons, List.map_append, map_node_bodyVisits _ _ body,
      map_node_bodyVisits _ _ otherwise]
  | loop condition body => rw [visits, nodes, List.map_cons, map_node_bodyVisits _ _ body]
  | forEach item list body => rw [visits, nodes, List.map_cons, map_node_bodyVisits _ _ body]

/-- The visits of a body see its nodes. -/
@[simp] theorem map_node_bodyVisits (start : Nat) (inside : Branch) (actions : List Action) :
    (bodyVisits start inside actions).map Visit.node = bodyNodes actions := by
  cases actions with
  | nil => rfl
  | cons action actions =>
    rw [bodyVisits, bodyNodes, List.map_append, map_node_visits _ _ action,
      map_node_bodyVisits _ _ actions]

end

/-- The visits of two bodies behind each other; the second starts where the first ended. -/
theorem bodyVisits_append (start : Nat) (inside : Branch) (first second : List Action) :
    bodyVisits start inside (first ++ second) = bodyVisits start inside first ++
      bodyVisits (start + (bodyNodes first).length) inside second := by
  induction first generalizing start with
  | nil => rfl
  | cons action actions ih =>
    rw [List.cons_append, bodyVisits, bodyVisits, ih, List.append_assoc, bodyNodes,
      List.length_append, Nat.add_assoc]

/-- A body of one action. -/
@[simp] theorem bodyNodes_singleton (action : Action) : bodyNodes [action] = nodes action := by
  rw [bodyNodes, bodyNodes, List.append_nil]

/-- The visits of a body of one action. -/
@[simp] theorem bodyVisits_singleton (start : Nat) (inside : Branch) (action : Action) :
    bodyVisits start inside [action] = visits start inside action := by
  rw [bodyVisits, bodyVisits, List.append_nil]

end Action

open Blockwright.Script.Action

/-! ### Arms -/

/-- Where a walk stands behind the arms of a conditional, and the branch that is open there. -/
def armsEnd (start : Nat) (inside : Branch) : List Arm → Nat × Branch
  | [] => (start, inside)
  | (_, body) :: arms => armsEnd (start + 1 + (bodyNodes body).length) (.otherwise start) arms

/-- Later arms nest inside earlier ones. -/
theorem nestArms_append (last : List Action) (first second : List Arm) :
    nestArms last (first ++ second) = nestArms (nestArms last second) first := by
  induction first with
  | nil => rfl
  | cons arm arms ih => rw [List.cons_append, nestArms, nestArms, ih]

/-- With at least one arm, a conditional is its nested arms. -/
theorem nestArms_eq_branchOfArms (last : List Action) {arms : List Arm} (h : arms ≠ []) :
    nestArms last arms = [branchOfArms last arms] := by
  cases arms with
  | nil => exact absurd rfl h
  | cons arm arms => rfl

/-- The last of several arms is nested in the one before it. -/
theorem branchOfArms_concat (last : List Action) {arms : List Arm} (h : arms ≠ [])
    (condition : String) (body : List Action) :
    branchOfArms last (arms ++ [(condition, body)]) =
      branchOfArms [.branch condition body last] arms := by
  cases arms with
  | nil => exact absurd rfl h
  | cons arm arms => rw [List.cons_append, branchOfArms, branchOfArms, nestArms_append]; rfl

/-- What is nested innermost is visited last. -/
theorem bodyVisits_nestArms (start : Nat) (inside : Branch) (last : List Action)
    (arms : List Arm) :
    bodyVisits start inside (nestArms last arms) = bodyVisits start inside (nestArms [] arms) ++
      bodyVisits (armsEnd start inside arms).1 (armsEnd start inside arms).2 last := by
  induction arms generalizing start inside with
  | nil => rfl
  | cons arm arms ih =>
    rw [nestArms, nestArms, bodyVisits_singleton, bodyVisits_singleton, visits, visits, ih,
      armsEnd, List.cons_append, List.append_assoc]

/-- Behind its arms the walk has passed all their nodes. -/
theorem armsEnd_fst (start : Nat) (inside : Branch) (arms : List Arm) :
    (armsEnd start inside arms).1 = start + (bodyNodes (nestArms [] arms)).length := by
  induction arms generalizing start inside with
  | nil => rfl
  | cons arm arms ih =>
    rw [armsEnd, ih, nestArms, bodyNodes_singleton, nodes, List.length_cons, List.length_append]
    omega

/-- Behind one more arm the walk is in that arm's alternative. -/
theorem armsEnd_concat (start : Nat) (inside : Branch) (arms : List Arm) (arm : Arm) :
    armsEnd start inside (arms ++ [arm]) =
      ((armsEnd start inside arms).1 + 1 + (bodyNodes arm.2).length,
        .otherwise (armsEnd start inside arms).1) := by
  induction arms generalizing start inside with
  | nil => rfl
  | cons first arms ih => rw [List.cons_append, armsEnd, armsEnd, ih]

/-! ### Programs -/

/-- The two sorts of roots. A program keeps a list of each. -/
inductive RootKind where
  | event
  | procedure
  deriving DecidableEq, Repr

/-- The nodes of a handler: its header, then the nodes of its actions. -/
def Event.nodes (e : Event) : List Node := .event e.component e.event :: bodyNodes e.actions

/-- The nodes of a procedure: its header, then the nodes of its actions. -/
def Procedure.nodes (p : Procedure) : List Node :=
  .procedure p.name p.parameters :: bodyNodes p.actions

namespace Root

/-- The sort of a root. -/
def kind : Root → RootKind
  | event _ => .event
  | procedure _ => .procedure

/-- The nodes of a root. -/
def nodes : Root → List Node
  | event e => e.nodes
  | procedure p => p.nodes

/-- The visits of a root when the walk stands at `start`. -/
def visits (start : Nat) : Root → List Visit
  | event e =>
    ⟨.event e.component e.event, .top⟩ :: bodyVisits (start + 1) (.body start) e.actions
  | procedure p =>
    ⟨.procedure p.name p.parameters, .top⟩ :: bodyVisits (start + 1) (.body start) p.actions

/-- The visits of a root see its nodes. -/
@[simp] theorem map_node_visits (start : Nat) (root : Root) :
    (root.visits start).map Visit.node = root.nodes := by
  cases root with
  | event e => rw [visits, nodes, Event.nodes, List.map_cons, map_node_bodyVisits]
  | procedure p => rw [visits, nodes, Procedure.nodes, List.map_cons, map_node_bodyVisits]

end Root

/-- The visits of several roots when the walk stands at `start`. -/
def rootsVisits (start : Nat) : List Root → List Visit
  | [] => []
  | root :: roots => root.visits start ++ rootsVisits (start + root.nodes.length) roots

/-- The visits of roots see their nodes. -/
@[simp] theorem map_node_rootsVisits (start : Nat) (roots : List Root) :
    (rootsVisits start roots).map Visit.node = roots.flatMap Root.nodes := by
  induction roots generalizing start with
  | nil => rfl
  | cons root roots ih =>
    rw [rootsVisits, List.map_append, Root.map_node_visits, ih, List.flatMap_cons]

/-- One more root is visited where the walk over the others ended. -/
theorem rootsVisits_concat (start : Nat) (roots : List Root) (root : Root) :
    rootsVisits start (roots ++ [root]) = rootsVisits start roots ++
      root.visits (start + (roots.flatMap Root.nodes).length) := by
  induction roots generalizing start with
  | nil => simp [rootsVisits]
  | cons first roots ih =>
    rw [List.cons_append, rootsVisits, rootsVisits, ih, List.append_assoc, List.flatMap_cons,
      List.length_append, Nat.add_assoc]

namespace Program

/-- The roots of one sort, in the program's order. -/
def roots (p : Program) : RootKind → List Root
  | .event => p.events.map Root.event
  | .procedure => p.procedures.map Root.procedure

/-- All procedures and then all handlers. -/
def forest (p : Program) : List Root := p.roots .procedure ++ p.roots .event

/-- The nodes of a program's trees. -/
def nodes (p : Program) : List Node := p.forest.flatMap Root.nodes

/-- The walk over the roots of one sort. -/
def visits (p : Program) (kind : RootKind) : List Visit := rootsVisits 0 (p.roots kind)

/-- The nodes of all handlers. -/
theorem map_node_visits_event (p : Program) :
    (p.visits .event).map Visit.node = p.events.flatMap Event.nodes := by
  rw [visits, map_node_rootsVisits, roots, List.flatMap_map]
  rfl

/-- The nodes of all procedures. -/
theorem map_node_visits_procedure (p : Program) :
    (p.visits .procedure).map Visit.node = p.procedures.flatMap Procedure.nodes := by
  rw [visits, map_node_rootsVisits, roots, List.flatMap_map]
  rfl

end Program

end Blockwright.Script
