import Blockwright.Proofs.Growth
import Mathlib.Data.List.TakeWhile

/-!
# Reading lines without building trees

The outline of a script keeps the lines whose branches are open and, for the roots of each sort,
the lines that made a node, each with the branch that its node lies in. Every line changes the
outline by simple rules, and a program being put together follows them: `Traces` is kept by every
line. What a line does can then be told from the lines before it, and trees play no part.
-/

namespace Blockwright.Script

/-! ### What lines say -/

namespace Statement

/-- The sort of root that a statement opens, if it opens one. -/
def kind? : Statement → Option RootKind
  | event .. => some .event
  | procedure .. => some .procedure
  | _ => none

/-- The node that a statement makes where it is accepted, if it makes one. A further arm makes a
conditional; the last arm makes none. -/
def node? : Statement → Option Node
  | event component occurrence => some (.event component occurrence)
  | declare name value => some (.define name value)
  | procedure name parameters => some (.procedure name parameters)
  | setProperty component property value => some (.setProperty component property value)
  | assign target value => some (.assign target value)
  | callMethod component method arguments => some (.call component method arguments)
  | callProcedure name arguments => some (.call name name arguments)
  | elseIf condition => some (.branch condition)
  | otherwise => none
  | branch condition => some (.branch condition)
  | forEach item list => some (.forEach item list)
  | loop condition => some (.loop condition)
  | closing => none

/-- Whether a statement opens a branch for later lines. -/
def opens : Statement → Bool
  | event .. | procedure .. | elseIf _ | otherwise | branch _ | forEach .. | loop _ => true
  | _ => false

/-- Whether a statement has to stand inside a block: it is an action or a control structure. -/
def needsBlock : Statement → Bool
  | setProperty .. | assign .. | callMethod .. | callProcedure .. => true
  | branch _ | forEach .. | loop _ => true
  | _ => false

/-- Whether a statement starts an arm of a conditional opened before. -/
def isArm : Statement → Bool
  | elseIf _ | otherwise => true
  | _ => false

/-- Whether an arm can follow the branch that a statement opens. -/
def awaitsArm : Statement → Bool
  | branch _ | elseIf _ => true
  | _ => false

/-- The variable that a statement declares, if it declares one. -/
def declared? : Statement → Option Variable
  | declare name value => some ⟨name, value⟩
  | _ => none

end Statement

namespace SourceLine

/-- What a line says, if some rule accepts it. -/
def statement? (line : SourceLine) : Option Statement := Statement.read line.text

/-- The sort of root that a line opens, if it opens one. -/
def kind? (line : SourceLine) : Option RootKind := line.statement?.bind Statement.kind?

/-- The node that a line makes where it is accepted, if it makes one. -/
def node? (line : SourceLine) : Option Node := line.statement?.bind Statement.node?

/-- The variable that a line declares, if it declares one. -/
def declared? (line : SourceLine) : Option Variable := line.statement?.bind Statement.declared?

/-- Whether some rule accepts a line. -/
def isRecognised (line : SourceLine) : Bool := line.statement?.isSome

/-- Whether a line is the header of a handler or procedure. -/
def isHeader (line : SourceLine) : Bool := line.kind?.isSome

/-- Whether a line opens a branch where it is accepted. -/
def opens (line : SourceLine) : Bool := line.statement?.any Statement.opens

/-- Whether a line has to stand inside a block: it is an action or a control structure. -/
def needsBlock (line : SourceLine) : Bool := line.statement?.any Statement.needsBlock

/-- Whether a line starts an arm of a conditional opened before. -/
def isArm (line : SourceLine) : Bool := line.statement?.any Statement.isArm

/-- Whether an arm can follow the branch that a line opens. -/
def awaitsArm (line : SourceLine) : Bool := line.statement?.any Statement.awaitsArm

section statement

variable {line : SourceLine} {statement : Statement} (h : line.statement? = some statement)

include h

/-- A line opens the root that its statement opens. -/
theorem kind?_of_statement : line.kind? = statement.kind? := by rw [kind?, h]; rfl

/-- A line makes the node that its statement makes. -/
theorem node?_of_statement : line.node? = statement.node? := by rw [node?, h]; rfl

/-- A line declares the variable that its statement declares. -/
theorem declared?_of_statement : line.declared? = statement.declared? := by
  rw [declared?, h]
  rfl

/-- A line with a statement is recognised. -/
theorem isRecognised_of_statement : line.isRecognised := by rw [isRecognised, h]; rfl

/-- A line is a header exactly if its statement opens a root. -/
theorem isHeader_of_statement : line.isHeader = statement.kind?.isSome := by
  rw [isHeader, kind?_of_statement h]

/-- A line opens a branch exactly if its statement does. -/
theorem opens_of_statement : line.opens = statement.opens := by rw [opens, h]; rfl

/-- A line needs a block around it exactly if its statement does. -/
theorem needsBlock_of_statement : line.needsBlock = statement.needsBlock := by
  rw [needsBlock, h]
  rfl

/-- A line starts an arm exactly if its statement does. -/
theorem isArm_of_statement : line.isArm = statement.isArm := by rw [isArm, h]; rfl

/-- An arm can follow a line exactly if it can follow its statement. -/
theorem awaitsArm_of_statement : line.awaitsArm = statement.awaitsArm := by rw [awaitsArm, h]; rfl

end statement

end SourceLine

/-! ### Outlines -/

/-- A line with the branch that it opened. -/
structure Opening where
  line : SourceLine
  branch : Branch
  deriving DecidableEq, Repr

/-- What an opening shows to later lines. -/
def Opening.slot (opening : Opening) : Slot :=
  ⟨opening.line.indent, opening.line.awaitsArm, opening.branch⟩

/-- A line that made a node, with the branch that the node lies in. -/
structure Entry where
  line : SourceLine
  inside : Branch
  deriving DecidableEq, Repr

/-- The visit of the node that a line made. -/
def Entry.visit? (entry : Entry) : Option Visit := entry.line.node?.map (⟨·, entry.inside⟩)

/-- What has been read of a script. -/
structure Outline where
  /-- The lines whose branches are open, the innermost first. -/
  openings : List Opening
  /-- The sort of the latest root. -/
  current : Option RootKind
  /-- The lines that made a node of a root of some sort, in order. -/
  made : RootKind → List Entry

namespace Outline

/-- Nothing read yet. -/
def empty : Outline := ⟨[], none, fun _ ↦ []⟩

/-- Closes the open branches whose indentation passes a test, from the inside. -/
def closeBy (test : Nat → Bool) (o : Outline) : Outline :=
  { o with openings := o.openings.dropWhile (fun opening ↦ test opening.line.indent) }

/-- Closes every branch opened at this indentation or deeper. -/
def close (indent : Nat) (o : Outline) : Outline := o.closeBy (fun n ↦ indent ≤ n)

/-- Where the walk over the roots of the latest sort stands. -/
def position (o : Outline) : Nat :=
  match o.current with
  | some kind => (o.made kind).length
  | none => 0

/-- Notes that a line made a node in a branch. -/
def record (line : SourceLine) (inside : Branch) (o : Outline) : Outline where
  openings := o.openings
  current := o.current
  made kind := o.made kind ++ if o.current = some kind then [⟨line, inside⟩] else []

/-- A root begins. -/
def begin (kind : RootKind) (line : SourceLine) (o : Outline) : Outline where
  openings := [⟨line, .body (o.made kind).length⟩]
  current := some kind
  made other := o.made other ++ if other = kind then [⟨line, .top⟩] else []

/-- The open branch that an arm at this indentation can follow, and the branches around it. -/
def awaiting? (indent : Nat) (o : Outline) : Option (Opening × List Opening) :=
  match (o.closeBy (fun n ↦ indent < n)).openings with
  | [] => none
  | opening :: outer =>
    if opening.line.indent == indent && opening.line.awaitsArm then some (opening, outer)
    else none

/-- A line starts an arm, which makes a node unless it is the last one. -/
def turn (line : SourceLine) (statement : Statement) (o : Outline) : Outline :=
  match o.awaiting? line.indent with
  | none => o.close line.indent
  | some (opening, outer) =>
    if statement.awaitsArm then
      { o.record line opening.branch.alternative with
        openings := ⟨line, .body o.position⟩ :: outer }
    else { o with openings := ⟨line, opening.branch.alternative⟩ :: outer }

/-- A line that is neither a root nor an arm: it lies in the innermost branch that its indentation
leaves open, and may open a branch there. -/
def place (line : SourceLine) (statement : Statement) (o : Outline) : Outline :=
  let o := o.close line.indent
  match o.openings with
  | [] => o
  | opening :: _ =>
    let next := if statement.node?.isSome then o.record line opening.branch else o
    if statement.opens then
      { next with openings := ⟨line, .body o.position⟩ :: o.openings }
    else next

/-- Takes one line. -/
def take (o : Outline) (line : SourceLine) : Outline :=
  match line.statement? with
  | none => o
  | some statement =>
    match statement.kind? with
    | some kind => o.begin kind line
    | none => if statement.isArm then o.turn line statement else o.place line statement

/-- The complaint about a line, if there is one. -/
def verdict (o : Outline) (line : SourceLine) : Option String :=
  match line.statement? with
  | none => some invalidSyntax
  | some statement =>
    if statement.needsBlock && (o.close line.indent).openings.isEmpty then some noScope
    else if statement.isArm && (o.awaiting? line.indent).isNone then some elseWithoutIf
    else none

/-- The complaint about a line that a rule accepts. -/
theorem verdict_of_statement {line : SourceLine} {statement : Statement} (o : Outline)
    (hl : line.statement? = some statement) : o.verdict line =
      if statement.needsBlock && (o.close line.indent).openings.isEmpty then some noScope
      else if statement.isArm && (o.awaiting? line.indent).isNone then some elseWithoutIf
      else none := by
  rw [verdict, hl]

private theorem made_record (line : SourceLine) (inside : Branch) {o : Outline} {kind : RootKind}
    (hc : o.current = some kind) (other : RootKind) :
    (o.record line inside).made other =
      o.made other ++ if other = kind then [⟨line, inside⟩] else [] := by
  show o.made other ++ ite (o.current = some other) [_] [] = _
  rw [hc]
  by_cases h : other = kind
  · rw [if_pos (congrArg some h.symm), if_pos h]
  · rw [if_neg (fun hs ↦ h (Option.some.inj hs).symm), if_neg h]

private theorem awaiting?_of_openings {indent : Nat} {o : Outline} {opening : Opening}
    {outer : List Opening} (h : (o.closeBy (fun n ↦ indent < n)).openings = opening :: outer) :
    o.awaiting? indent = if opening.line.indent == indent && opening.line.awaitsArm then
      some (opening, outer) else none := by
  rw [awaiting?, h]

/-- Closing what is deeper first makes no difference to closing by indentation. -/
theorem close_closeBy (indent : Nat) (o : Outline) :
    (o.closeBy (fun n ↦ indent < n)).close indent = o.close indent := by
  have hd (openings : List Opening) :
      (openings.dropWhile (fun opening ↦ decide (indent < opening.line.indent))).dropWhile
          (fun opening ↦ decide (indent ≤ opening.line.indent)) =
        openings.dropWhile (fun opening ↦ decide (indent ≤ opening.line.indent)) := by
    induction openings with
    | nil => rfl
    | cons opening openings ih =>
      by_cases h : indent < opening.line.indent
      · rw [List.dropWhile_cons, if_pos (by simpa using h), ih, List.dropWhile_cons,
          if_pos (by simpa using Nat.le_of_lt h)]
      · rw [List.dropWhile_cons, if_neg (by simpa using h)]
  unfold close closeBy
  rw [hd]

end Outline

/-! ### Programs follow outlines -/

/-- A program being put together looks like an outline: its walk visits the nodes of the lines
that made one, in the noted branches, and its open blocks are those of the openings. -/
structure Traces (a : Assembly) (o : Outline) : Prop where
  nested : a.scope.Nested
  kind?_eq : a.scope ≠ [] → a.scope.kind? = o.current
  slots_eq : a.slots = o.openings.map Opening.slot
  log_eq : ∀ kind, (a.log kind).map some = (o.made kind).map Entry.visit?

namespace Traces

variable {a b : Assembly} {o : Outline}

/-- Nothing has been read of either. -/
theorem empty : Traces Assembly.empty Outline.empty where
  nested := trivial
  kind?_eq h := absurd rfl h
  slots_eq := rfl
  log_eq kind := by cases kind <;> rfl

/-- A block is open exactly when a branch is. -/
theorem scope_eq_nil_iff (h : Traces a o) : a.scope = [] ↔ o.openings = [] := by
  have hk := h.nested.isSome_kind?
  have hs := h.slots_eq
  constructor
  · intro he
    rw [Assembly.slots, he] at hs
    exact List.map_eq_nil_iff.mp hs.symm
  · intro he
    rw [he] at hs
    cases hf : a.scope with
    | nil => rfl
    | cons frame outer =>
      rw [hf] at hk
      obtain ⟨kind, hk⟩ := Option.isSome_iff_exists.mp hk
      rw [← hf] at hk
      rw [Assembly.slots_eq hk, hf] at hs
      cases hs

private theorem of_openings (h : Traces a o) {opening : Opening} {outer : List Opening}
    (ho : o.openings = opening :: outer) : ∃ kind, a.scope.kind? = some kind ∧
      o.current = some kind ∧ a.slots = opening.slot :: outer.map Opening.slot ∧
      o.position = (a.log kind).length := by
  have hn : a.scope ≠ [] := by
    rw [Ne, h.scope_eq_nil_iff, ho]
    exact List.cons_ne_nil _ _
  have hk := h.nested.isSome_kind?
  rw [List.isEmpty_eq_false_iff.mpr hn] at hk
  obtain ⟨kind, hk⟩ := Option.isSome_iff_exists.mp hk
  have hc : o.current = some kind := by rw [← h.kind?_eq hn, hk]
  refine ⟨kind, hk, hc, by rw [h.slots_eq, ho]; rfl, ?_⟩
  have hl := congrArg List.length (h.log_eq kind)
  rw [List.length_map, List.length_map] at hl
  rw [Outline.position, hc]
  exact hl.symm

/-- Closing by a test on the indentation is followed. -/
theorem closeBy (h : Traces a o) (test : Nat → Bool) :
    Traces (a.closeBy test) (o.closeBy test) where
  nested := Assembly.nested_closeBy test h.nested
  kind?_eq hn := by
    rw [Assembly.kind?_closeBy test h.nested hn]
    apply h.kind?_eq
    intro he
    apply hn
    show (a.scope.closeWhile _ none).2 = []
    rw [he]
    rfl
  slots_eq := by
    rw [Assembly.slots_closeBy test h.nested, h.slots_eq, List.dropWhile_map]
    rfl
  log_eq kind := by
    rw [Assembly.log_closeBy test h.nested]
    exact h.log_eq kind

/-- Closing by indentation is followed. -/
theorem closeTo (h : Traces a o) (indent : Nat) :
    Traces (a.closeTo indent) (o.close indent) := h.closeBy (fun n ↦ indent ≤ n)

private theorem complain (h : Traces a o) (number : Nat) (message : String) :
    Traces (a.complain number message) o :=
  ⟨h.nested, h.kind?_eq, h.slots_eq, h.log_eq⟩

private theorem mention (h : Traces a o) (component : String) : Traces (a.mention component) o :=
  ⟨h.nested, h.kind?_eq, h.slots_eq, h.log_eq⟩

private theorem declare (h : Traces a o) (name value : String) : Traces (a.declare name value) o :=
  ⟨h.nested, h.kind?_eq, h.slots_eq, h.log_eq⟩

private theorem of_grown (h : Traces a o) {kind : RootKind} {added : List Visit} {slots : List Slot}
    (hg : Assembly.Grown a kind added slots b) {next : Outline} (entries : List Entry)
    (hs : slots = next.openings.map Opening.slot) (hc : next.current = some kind)
    (hm : ∀ other, next.made other = o.made other ++ if other = kind then entries else [])
    (he : added.map some = entries.map Entry.visit?) : Traces b next where
  nested := hg.nested
  kind?_eq _ := by rw [hg.kind?_eq, hc]
  slots_eq := by rw [hg.slots_eq, hs]
  log_eq other := by
    rw [hg.log_eq, hm, List.map_append, List.map_append, h.log_eq]
    split
    · rw [he]
    · rfl

/-! ### Steps -/

variable {line : SourceLine} {statement : Statement}

private theorem visit?_entry (hl : line.statement? = some statement) {node : Node}
    (hn : statement.node? = some node) (inside : Branch) :
    Entry.visit? ⟨line, inside⟩ = some ⟨node, inside⟩ := by
  rw [Entry.visit?, SourceLine.node?_of_statement hl, hn]
  rfl

private theorem slot_opening (hl : line.statement? = some statement) (branch : Branch) :
    Opening.slot ⟨line, branch⟩ = ⟨line.indent, statement.awaitsArm, branch⟩ := by
  rw [Opening.slot, SourceLine.awaitsArm_of_statement hl]

private theorem openRoot (h : Traces a o) (hl : line.statement? = some statement) {header : Header}
    {kind : RootKind} (hk : header.kind? = some kind)
    (hn : statement.node? = some header.node) (hw : statement.awaitsArm = false) :
    Traces (a.openRoot line header) (o.begin kind line) := by
  have ho : o.closeBy (fun _ ↦ true) = { o with openings := [] } := by
    have hd : o.openings.dropWhile (fun _ ↦ true) = [] :=
      List.dropWhile_eq_nil_iff.mpr (fun _ _ ↦ rfl)
    rw [Outline.closeBy, hd]
  have ha : Traces a.closeAll { o with openings := [] } := ho ▸ h.closeBy (fun _ ↦ true)
  have hc : a.closeAll.scope = [] := ha.scope_eq_nil_iff.mpr rfl
  have hp : a.closeAll.scope.push (.opened line.indent header) =
      some [.opened line.indent header] := by
    have hr : header.isRoot = true := by rw [← header.isSome_kind?, hk]; rfl
    rw [hc, Scope.push, show (Frame.opened line.indent header).header.isRoot = true from hr]
    rfl
  have hg := Assembly.grown_root hc line.indent hk hp
  have hlen := congrArg List.length (ha.log_eq kind)
  rw [List.length_map, List.length_map] at hlen
  show Traces (a.closeAll.withScope (a.closeAll.scope.push (.opened line.indent header)) id) _
  rw [hp]
  refine ha.of_grown hg [⟨line, .top⟩] ?_ rfl (fun _ ↦ rfl) ?_
  · rw [hlen]
    show _ = [Opening.slot _]
    rw [slot_opening hl, hw]
  · rw [List.map_cons, List.map_cons, visit?_entry hl hn]
    rfl

private theorem add (h : Traces a o) (hl : line.statement? = some statement) {action : Action}
    {node : Node} (hn : statement.node? = some node) (ho : statement.opens = false)
    (ha : ∀ start inside, action.visits start inside = [⟨node, inside⟩]) :
    Traces ((a.closeTo line.indent).withScope ((a.closeTo line.indent).scope.add action) id)
      (o.place line statement) := by
  have hc := h.closeTo line.indent
  unfold Outline.place
  dsimp only
  split
  · next he =>
    rw [hc.scope_eq_nil_iff.mpr he]
    exact hc
  · next opening outer he =>
    obtain ⟨kind, hk, hcur, hs, hp⟩ := hc.of_openings he
    rw [hn, ho]
    cases hf : (a.closeTo line.indent).scope with
    | nil =>
      rw [hf] at hk
      cases hk
    | cons frame rest =>
      have hsound : frame.Sound := (hf ▸ hc.nested : Scope.Nested (frame :: rest)).1
      have hg := Assembly.grown_turned hc.nested hk hs hf (frame.turned_add hsound action)
      have hslot := Assembly.slot_of_scope hk hs hf
      refine hc.of_grown hg [⟨line, opening.branch⟩] ?_ hcur
        (Outline.made_record line opening.branch hcur) ?_
      · show _ = (o.close line.indent).openings.map Opening.slot
        rw [he, List.map_cons]
        congr 1
        rw [show (frame.add action).indent = frame.indent from rfl, ← hslot.1,
          show (frame.add action).header = frame.header from rfl, ← hslot.2]
      · rw [ha, List.map_cons, List.map_cons, visit?_entry hl hn]
        rfl

private theorem perform (h : Traces a o) (hl : line.statement? = some statement)
    (component : Option String) {action : Action} {node : Node}
    (hn : statement.node? = some node) (ho : statement.opens = false)
    (ha : ∀ start inside, action.visits start inside = [⟨node, inside⟩]) :
    Traces (a.perform line component action) (o.place line statement) := by
  have hadd := h.add hl hn ho ha
  unfold Assembly.perform
  dsimp only
  split
  · next scope hs =>
    rw [hs] at hadd
    cases component with
    | none => exact hadd
    | some name => exact hadd.mention name
  · next hs =>
    rw [hs] at hadd
    exact hadd.complain _ _

private theorem openControl (h : Traces a o) (hl : line.statement? = some statement)
    {header : Header} (hf : header.Fresh) (hr : header.isRoot = false)
    (hn : statement.node? = some header.node) (ho : statement.opens = true)
    (hw : statement.awaitsArm = header.awaitsArm) :
    Traces (a.openControl line header) (o.place line statement) := by
  have hc := h.closeTo line.indent
  unfold Outline.place Assembly.openControl
  dsimp only
  split
  · next he =>
    have hp : (a.closeTo line.indent).scope.push (.opened line.indent header) = none := by
      rw [hc.scope_eq_nil_iff.mpr he, Scope.push,
        show (Frame.opened line.indent header).header.isRoot = false from hr]
      rfl
    rw [hp]
    exact hc.complain _ _
  · next opening outer he =>
    obtain ⟨kind, hk, hcur, hs, hp⟩ := hc.of_openings he
    have hpush : (a.closeTo line.indent).scope.push (.opened line.indent header) =
        some (.opened line.indent header :: (a.closeTo line.indent).scope) := by
      have hne : (a.closeTo line.indent).scope.isEmpty = false := by
        rw [List.isEmpty_eq_false_iff, Ne, hc.scope_eq_nil_iff, he]
        exact List.cons_ne_nil _ _
      rw [Scope.push, hne]
      rfl
    have hg := Assembly.grown_push hc.nested hk hs line.indent hf hr hpush
    rw [hpush, hn, ho]
    refine hc.of_grown hg [⟨line, opening.branch⟩] ?_ hcur
      (Outline.made_record line opening.branch hcur) ?_
    · show _ = Opening.slot _ :: (o.close line.indent).openings.map Opening.slot
      rw [slot_opening hl, hw, hp, hc.slots_eq]
    · rw [List.map_cons, List.map_cons, visit?_entry hl hn]
      rfl

/-- The innermost block takes an arm exactly when an opening awaits one. -/
theorem startArm_cases (h : Traces a o) (indent : Nat) (condition : String) (last : Bool) :
    ((a.closeDeeper indent).scope.modify (Frame.startArm indent condition last) = none ∧
        o.awaiting? indent = none) ∨
      ∃ frame next rest opening outer, (a.closeDeeper indent).scope = frame :: rest ∧
        frame.startArm indent condition last = some next ∧
        o.awaiting? indent = some (opening, outer) ∧
        (o.closeBy (fun n ↦ indent < n)).openings = opening :: outer := by
  have hd : Traces (a.closeDeeper indent) (o.closeBy (fun n ↦ indent < n)) :=
    h.closeBy (fun n ↦ indent < n)
  cases he : (o.closeBy (fun n ↦ indent < n)).openings with
  | nil =>
    left
    rw [hd.scope_eq_nil_iff.mpr he, Outline.awaiting?, he]
    exact ⟨rfl, rfl⟩
  | cons opening outer =>
    obtain ⟨kind, hk, -, hs, -⟩ := hd.of_openings he
    cases hscope : (a.closeDeeper indent).scope with
    | nil =>
      rw [hscope] at hk
      cases hk
    | cons frame rest =>
      obtain ⟨hi, hw⟩ := Assembly.slot_of_scope hk hs hscope
      -- The arm asks of the block what the outline asks of the line that opened it.
      have hsome : (frame.startArm indent condition last).isSome =
          (opening.line.indent == indent && opening.line.awaitsArm) := by
        rw [Frame.isSome_startArm, ← hi, ← hw]
        rfl
      have hwaiting := Outline.awaiting?_of_openings he
      rw [← hsome] at hwaiting
      cases hn : frame.startArm indent condition last with
      | none =>
        left
        rw [hn] at hwaiting
        rw [Scope.modify, hn]
        exact ⟨rfl, hwaiting⟩
      | some next =>
        right
        rw [hn] at hwaiting
        exact ⟨frame, next, rest, opening, outer, rfl, hn, hwaiting, rfl⟩

private theorem turn (h : Traces a o) (hl : line.statement? = some statement)
    {condition : String} {last : Bool} (hlast : statement.awaitsArm = !last)
    (added : Nat → Branch → List Visit) (fill : Nat → Branch → Branch)
    (ht : ∀ frame next : Frame, frame.startArm line.indent condition last = some next →
      frame.Turned next added fill)
    (ha : ∀ position branch, (added position branch).map some =
      (if statement.awaitsArm then [Entry.mk line branch.alternative] else []).map Entry.visit?)
    (hf : ∀ position branch, fill position branch =
      if statement.awaitsArm then .body position else branch.alternative) :
    Traces ((a.closeDeeper line.indent).withScope ((a.closeDeeper line.indent).scope.modify
        (Frame.startArm line.indent condition last)) (Assembly.strayArm line))
      (o.turn line statement) := by
  have hd : Traces (a.closeDeeper line.indent) (o.closeBy (fun n ↦ line.indent < n)) :=
    h.closeBy (fun n ↦ line.indent < n)
  rcases h.startArm_cases line.indent condition last with ⟨hm, hwaiting⟩ |
    ⟨frame, next, rest, opening, outer, hscope, hn, hwaiting, he⟩
  · -- an arm that no block takes only closes blocks
    rw [hm, Outline.turn, hwaiting]
    show Traces _ (o.close line.indent)
    rw [← Outline.close_closeBy]
    exact (hd.complain _ _).closeTo line.indent
  · obtain ⟨kind, hk, hcur, hs, hp⟩ := hd.of_openings he
    have hnext : next.indent = line.indent ∧ next.header.awaitsArm = statement.awaitsArm := by
      obtain ⟨_, _, _, rfl⟩ := Frame.startArm_eq_some_iff.mp hn
      rw [hlast]
      cases last <;> exact ⟨rfl, rfl⟩
    have hg := Assembly.grown_turned hd.nested hk hs hscope (ht frame next hn)
    rw [hnext.1, hnext.2, hf, ← hp] at hg
    have hadded := ha (o.closeBy (fun n ↦ line.indent < n)).position opening.branch
    rw [hscope, Scope.modify, hn, Outline.turn, hwaiting]
    cases hwait : statement.awaitsArm with
    | true =>
      rw [hwait] at hg hadded
      refine hd.of_grown hg [⟨line, opening.branch.alternative⟩] ?_ hcur
        (Outline.made_record line _ hcur) hadded
      show _ = Opening.slot _ :: outer.map Opening.slot
      rw [slot_opening hl, hwait]
      rfl
    | false =>
      rw [hwait] at hg hadded
      refine hd.of_grown hg [] ?_ hcur (fun other ↦ ?_) hadded
      · show _ = Opening.slot _ :: outer.map Opening.slot
        rw [slot_opening hl, hwait]
        rfl
      · rw [ite_self, List.append_nil]
        rfl

/-- Every line is followed. -/
theorem take (h : Traces a o) (line : SourceLine) : Traces (a.take line) (o.take line) := by
  unfold Assembly.take Outline.take
  cases hl : line.statement? with
  | none =>
    rw [show Statement.read line.text = none from hl]
    exact h.complain _ _
  | some statement =>
    rw [show Statement.read line.text = some statement from hl]
    cases statement with
    | event component occurrence => exact (h.openRoot hl rfl rfl rfl).mention component
    | procedure name parameters => exact h.openRoot hl rfl rfl rfl
    | declare name value => exact (h.add hl rfl rfl (fun _ _ ↦ rfl)).declare name value
    | setProperty component property value =>
      exact h.perform hl (some component) rfl rfl (fun _ _ ↦ rfl)
    | assign target value => exact h.perform hl none rfl rfl (fun _ _ ↦ rfl)
    | callMethod component method arguments =>
      exact h.perform hl (some component) rfl rfl (fun _ _ ↦ rfl)
    | callProcedure name arguments => exact h.perform hl none rfl rfl (fun _ _ ↦ rfl)
    | branch condition => exact h.openControl hl ⟨rfl, rfl⟩ rfl rfl rfl rfl
    | loop condition => exact h.openControl hl trivial rfl rfl rfl rfl
    | forEach item list => exact h.openControl hl trivial rfl rfl rfl rfl
    | elseIf condition =>
      refine h.turn hl rfl (fun _ branch ↦ [⟨.branch condition, branch.alternative⟩])
        (fun position _ ↦ .body position) (fun _ _ ↦ Frame.turned_elseIf) (fun _ branch ↦ ?_)
        (fun _ _ ↦ rfl)
      show _ = [Entry.visit? ⟨line, branch.alternative⟩]
      rw [visit?_entry hl rfl]
      rfl
    | otherwise =>
      exact h.turn hl rfl (fun _ _ ↦ []) (fun _ branch ↦ branch.alternative)
        (fun _ _ ↦ Frame.turned_otherwise) (fun _ _ ↦ rfl) (fun _ _ ↦ rfl)
    | closing =>
      have hp : o.place line .closing = o.close line.indent := by
        unfold Outline.place
        dsimp only
        split <;> rfl
      show Traces (a.closeTo line.indent) (o.place line .closing)
      rw [hp]
      exact h.closeTo line.indent

end Traces

end Blockwright.Script
