import Blockwright.Proofs.OpenBlocks

/-!
# The walk over a program being put together

The walk over the finished roots of one sort, followed by the walk over the open blocks when
they belong to a root of that sort. No operation on a program being put together changes what was
visited before: closing blocks adds nothing, and opening a block, adding an action or starting an
arm adds its node at the end.
-/

namespace Blockwright.Script.Assembly

open Scope

/-- How many nodes the finished roots of a sort have. -/
def passed (a : Assembly) (kind : RootKind) : Nat :=
  ((a.program.roots kind).flatMap Root.nodes).length

/-- The walk over the roots of a sort, with the root that is still open as if it were closed. -/
def log (a : Assembly) (kind : RootKind) : List Visit :=
  a.program.visits kind ++
    if a.scope.kind? = some kind then a.scope.visits (a.passed kind) else []

/-- The open blocks as later lines see them. -/
def slots (a : Assembly) : List Slot :=
  match a.scope.kind? with
  | some kind => a.scope.slots (a.passed kind)
  | none => []

/-! ### Storing and closing -/

private theorem roots_store (p : Program) (root : Root) (kind : RootKind) :
    (store p root).roots kind = p.roots kind ++ if root.kind = kind then [root] else [] := by
  cases root with
  | event e => cases kind <;> simp [store, Program.roots, Root.kind]
  | procedure q => cases kind <;> simp [store, Program.roots, Root.kind]

private theorem foldl_store (p : Program) (roots : List Root) :
    ∃ events procedures, roots.foldl store p = { p with events, procedures } := by
  induction roots generalizing p with
  | nil => exact ⟨p.events, p.procedures, rfl⟩
  | cons root roots ih =>
    obtain ⟨events, procedures, hs⟩ := ih (store p root)
    refine ⟨events, procedures, ?_⟩
    rw [List.foldl_cons, hs]
    cases root <;> rfl

private theorem log_settle (a : Assembly) {result : List Root × Scope} (h : Settled a.scope result)
    (kind : RootKind) : (a.settle result).log kind = a.log kind := by
  cases h with
  | kept rest hv hk =>
    show _ ++ ite (rest.kind? = some kind) (rest.visits (a.passed kind)) [] = _
    rw [hk, hv]
    rfl
  | closed root hv hk =>
    show rootsVisits 0 ((store a.program root).roots kind) ++ [] = _
    rw [List.append_nil, roots_store, log, ← hk]
    by_cases he : root.kind = kind
    · rw [if_pos he, if_pos (congrArg some he), rootsVisits_concat, ← hv]
      show _ ++ root.visits (0 + a.passed kind) = _
      rw [Nat.zero_add]
      rfl
    · rw [if_neg he, if_neg (fun hs ↦ he (Option.some.inj hs)), List.append_nil,
        List.append_nil]
      rfl

/-- Closes the open blocks whose indentation passes a test, from the inside. -/
def closeBy (test : Nat → Bool) (a : Assembly) : Assembly :=
  a.settle (a.scope.closeWhile (fun frame ↦ test frame.indent) none)

/-- Closing by indentation is one of the tests. -/
theorem closeTo_eq (indent : Nat) (a : Assembly) :
    a.closeTo indent = a.closeBy (fun n ↦ indent ≤ n) := rfl

/-- Closing everything is one of the tests. -/
theorem closeAll_eq (a : Assembly) : a.closeAll = a.closeBy (fun _ ↦ true) := rfl

section closing

variable {a : Assembly} (test : Nat → Bool)

/-- Closing changes no more of the program than its two lists of roots. -/
theorem program_closeBy : ∃ events procedures,
    (a.closeBy test).program = { a.program with events, procedures } := foldl_store _ _

/-- Closing leaves nested blocks. -/
theorem nested_closeBy (h : a.scope.Nested) : (a.closeBy test).scope.Nested :=
  h.closeWhile _ none

private theorem settled_closeBy (h : a.scope.Nested) :
    Settled a.scope (a.scope.closeWhile (fun frame ↦ test frame.indent) none) := by
  have hs := settled_closeWhile (fun frame ↦ test frame.indent) none h
  rwa [receive_none] at hs

/-- Closing leaves the walk as it is. -/
theorem log_closeBy (h : a.scope.Nested) (kind : RootKind) :
    (a.closeBy test).log kind = a.log kind := a.log_settle (settled_closeBy test h) kind

/-- As long as a block stays open, so does the root. -/
theorem kind?_closeBy (h : a.scope.Nested) (ho : (a.closeBy test).scope ≠ []) :
    (a.closeBy test).scope.kind? = a.scope.kind? := by
  have hs := settled_closeBy test h
  unfold closeBy settle at ho ⊢
  generalize a.scope.closeWhile (fun frame ↦ test frame.indent) none = result at hs ho ⊢
  cases hs with
  | kept rest hv hk => exact hk
  | closed root hv hk => exact absurd rfl ho

/-- Closing takes away the blocks that pass the test, from the inside. -/
theorem slots_closeBy (h : a.scope.Nested) :
    (a.closeBy test).slots = a.slots.dropWhile (fun slot ↦ test slot.indent) := by
  have hl (start : Nat) := slots_closeWhile start test none a.scope
  have hs := settled_closeBy test h
  unfold closeBy settle slots at *
  generalize a.scope.closeWhile (fun frame ↦ test frame.indent) none = result at hs hl ⊢
  cases hs with
  | kept rest hv hk =>
    dsimp only at hl ⊢
    rw [hk]
    split
    · exact hl _
    · rfl
  | closed root hv hk =>
    rw [← hk]
    exact hl _

end closing

/-- Taking over changed open blocks, or leaving them, keeps the program. -/
theorem program_withScope (a : Assembly) (changed : Option Scope) :
    (a.withScope changed id).program = a.program := by
  cases changed <;> rfl

/-! ### Growing -/

/-- `b` is `a` with open blocks inside a root of a sort, and with visits added to the walk over
the roots of that sort. -/
structure Grown (a : Assembly) (kind : RootKind) (added : List Visit) (slots : List Slot)
    (b : Assembly) : Prop where
  nested : b.scope.Nested
  kind?_eq : b.scope.kind? = some kind
  slots_eq : b.slots = slots
  log_eq : ∀ other, b.log other = a.log other ++ if other = kind then added else []

section growing

variable {a : Assembly} {kind : RootKind}

private theorem grown_of_scope {scope : Scope} {added : List Visit} (hn : scope.Nested)
    (hk : scope.kind? = some kind) (ha : a.scope = [] ∨ a.scope.kind? = some kind)
    (hv : scope.visits (a.passed kind) = a.scope.visits (a.passed kind) ++ added) :
    Grown a kind added (scope.slots (a.passed kind)) { a with scope } where
  nested := hn
  kind?_eq := hk
  slots_eq := by
    show (match scope.kind? with | some kind => scope.slots (a.passed kind) | none => []) = _
    rw [hk]
  log_eq other := by
    show _ ++ ite (scope.kind? = some other) (scope.visits (a.passed other)) [] = _
    rw [hk, log]
    by_cases ho : other = kind
    · subst ho
      rw [if_pos rfl, if_pos rfl, hv, List.append_assoc]
      rcases ha with ha | ha
      · simp [ha, visits]
      · rw [if_pos ha]
    · have hs : ¬ some kind = some other := fun h ↦ ho (Option.some.inj h).symm
      have hc : ¬ a.scope.kind? = some other := by
        rcases ha with ha | ha
        · simp [ha, Scope.kind?]
        · rwa [ha]
      rw [if_neg hs, if_neg hc, if_neg ho, List.append_nil, List.append_nil]

/-- The open blocks that later lines see are those of the root. -/
theorem slots_eq (hk : a.scope.kind? = some kind) : a.slots = a.scope.slots (a.passed kind) := by
  rw [slots, hk]

private theorem length_log (hk : a.scope.kind? = some kind) :
    (a.log kind).length = a.passed kind + a.scope.nodes.length := by
  rw [log, if_pos hk, List.length_append, length_visits, Program.visits, passed,
    ← map_node_rootsVisits 0, List.length_map]

private theorem filling_eq (hk : a.scope.kind? = some kind) {slot : Slot} {rest : List Slot}
    (hs : a.slots = slot :: rest) : a.scope.filling (a.passed kind) = slot.branch := by
  rw [slots_eq hk] at hs
  cases hf : a.scope with
  | nil =>
    rw [hf] at hs
    cases hs
  | cons frame outer =>
    rw [hf] at hs
    rw [← (List.cons.inj hs).1]

/-- What later lines see of the innermost block comes from that block. -/
theorem slot_of_scope (hk : a.scope.kind? = some kind) {slot : Slot} {rest : List Slot}
    (hs : a.slots = slot :: rest) {frame : Frame} {outer : Scope}
    (hf : a.scope = frame :: outer) :
    slot.indent = frame.indent ∧ slot.awaitsArm = frame.header.awaitsArm := by
  rw [slots_eq hk, hf] at hs
  rw [← (List.cons.inj hs).1]
  exact ⟨rfl, rfl⟩

/-- A change of the innermost block grows the walk by what the change adds. -/
theorem grown_turned (h : a.scope.Nested) (hk : a.scope.kind? = some kind) {slot : Slot}
    {rest : List Slot} (hs : a.slots = slot :: rest) {frame next : Frame} {outer : Scope}
    (hf : a.scope = frame :: outer) {added : Nat → Branch → List Visit}
    {fill : Nat → Branch → Branch} (ht : frame.Turned next added fill) :
    Grown a kind (added (a.log kind).length slot.branch)
      (⟨next.indent, next.header.awaitsArm, fill (a.log kind).length slot.branch⟩ :: rest)
      { a with scope := next :: outer } := by
  rw [← filling_eq hk hs, length_log hk]
  rw [slots_eq hk] at hs
  have ho := hk
  rw [hf] at hs h hk ⊢
  have hr : rest = outer.slots (a.passed kind) := (List.cons.inj hs).2.symm
  rw [hr, ← filling_turned _ outer ht]
  have hn : Nested (next :: outer) := by
    refine ⟨ht.sound, ?_, h.2.2⟩
    rw [← next.header.isSome_kind?, ht.kind?_eq, frame.header.isSome_kind?]
    exact h.2.1
  refine grown_of_scope hn ?_ (.inr ho) ?_
  · rw [Scope.kind?, List.findSome?_cons, ht.kind?_eq]
    exact hk
  · rw [hf]
    exact visits_turned _ outer ht

/-- A control structure that is opened is visited next, in the branch being filled. -/
theorem grown_push (h : a.scope.Nested) (hk : a.scope.kind? = some kind) {slot : Slot}
    {rest : List Slot} (hs : a.slots = slot :: rest) (indent : Nat) {header : Header}
    (hf : header.Fresh) (hr : header.isRoot = false) {scope : Scope}
    (hc : a.scope.push (.opened indent header) = some scope) :
    Grown a kind [⟨header.node, slot.branch⟩]
      (⟨indent, header.awaitsArm, .body (a.log kind).length⟩ :: a.slots) { a with scope } := by
  have ho : a.scope ≠ [] := by
    intro he
    rw [he] at hk
    cases hk
  have hp : scope = .opened indent header :: a.scope := by
    unfold push at hc
    rw [if_neg (by simp [ho])] at hc
    exact (Option.some.inj hc).symm
  have hn : header.kind? = none := by
    rw [← Option.isNone_iff_eq_none, ← Option.not_isSome, header.isSome_kind?, hr]
    rfl
  have hd : (⟨indent, header.awaitsArm, .body (a.log kind).length⟩ : Slot) :: a.slots =
      scope.slots (a.passed kind) := by
    rw [slots_eq hk, length_log hk, hp, Scope.slots, Scope.filling,
      Frame.filling_opened _ _ _ hf]
    rfl
  rw [hd]
  refine grown_of_scope ?_ ?_ (.inr hk) ?_
  · rw [hp]
    refine ⟨Frame.sound_opened indent hf, ?_, h⟩
    rw [show (Frame.opened indent header).header = header from rfl, hr]
    simp [ho]
  · rw [hp, Scope.kind?, List.findSome?_cons,
      show (Frame.opened indent header).header.kind? = none from hn]
    exact hk
  · rw [hp, Scope.visits, Frame.visits_close_opened _ _ _ hf, hr, filling_eq hk hs]
    rfl

/-- A root that is opened when no block is open is visited next. -/
theorem grown_root (hs : a.scope = []) (indent : Nat) {header : Header}
    (hk : header.kind? = some kind) {scope : Scope}
    (hc : a.scope.push (.opened indent header) = some scope) :
    Grown a kind [⟨header.node, .top⟩] [⟨indent, false, .body (a.log kind).length⟩]
      { a with scope } := by
  have hr : header.isRoot = true := by rw [← header.isSome_kind?, hk]; rfl
  have hf : header.Fresh := by
    cases header with
    | branch _ _ _ => cases hk
    | _ => trivial
  have hp : scope = [.opened indent header] := by
    have hh : (Frame.opened indent header).header.isRoot = true := hr
    rw [hs, push, hh] at hc
    exact (Option.some.inj hc).symm
  -- Nothing is open, so the log holds the finished roots only.
  have hl : (a.log kind).length = a.passed kind := by
    rw [log, hs, Program.visits, passed, ← map_node_rootsVisits 0, List.length_map]
    simp [Scope.kind?]
  have hd : [(⟨indent, false, .body (a.log kind).length⟩ : Slot)] =
      scope.slots (a.passed kind) := by
    rw [hl, hp, Scope.slots, Scope.filling, Frame.filling_opened _ _ _ hf]
    cases header with
    | branch _ _ _ => cases hk
    | _ => rfl
  rw [hd]
  refine grown_of_scope ?_ ?_ (.inl hs) ?_
  · rw [hp]
    exact ⟨Frame.sound_opened indent hf, hr, trivial⟩
  · rw [hp, Scope.kind?, List.findSome?_cons,
      show (Frame.opened indent header).header.kind? = some kind from hk]
  · rw [hp, hs, Scope.visits.eq_2, Frame.visits_close_opened _ _ _ hf, hr]
    rfl

end growing

end Blockwright.Script.Assembly
