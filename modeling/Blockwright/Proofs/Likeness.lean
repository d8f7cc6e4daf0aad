import Blockwright.Script.Assembly
import Mathlib.Data.List.Forall2

/-!
# Two readings side by side

Two texts with the same statements are read in step. The open blocks of one reading hold other
indentations than those of the other, the lines carry other numbers and the programs may have
started differently; as long as indentations compare in the same way on both sides, each line
does the same to both. What is to be kept alike is a parameter (`Likeness`), and what one line
keeps alike all lines do (`Assembly.Alike.foldl_take`).
-/

namespace Blockwright.Script

open Blockwright.Text

/-- What two readings have in common: pairs of indentations that are in the same order, pairs of
line numbers, and pairs of programs that stay related when the same is added to both. -/
structure Likeness where
  indents : Nat → Nat → Prop
  numbers : Nat → Nat → Prop
  programs : Program → Program → Prop
  lt_iff {m m' n n' : Nat} : indents m m' → indents n n' → (m < n ↔ m' < n')
  store {p q : Program} (root : Root) :
    programs p q → programs (Assembly.store p root) (Assembly.store q root)
  mention {p q : Program} (component : String) : programs p q →
    programs { p with components := Ordered.insertName component p.components }
      { q with components := Ordered.insertName component q.components }
  declare {p q : Program} (declared : Variable) : programs p q →
    programs { p with globals := p.globals ++ [declared] }
      { q with globals := q.globals ++ [declared] }
  complain {p q : Program} {m n : Nat} (message : String) : numbers m n → programs p q →
    programs { p with diagnostics := p.diagnostics ++ [⟨m, message⟩] }
      { q with diagnostics := q.diagnostics ++ [⟨n, message⟩] }

namespace Likeness

variable (L : Likeness)

private theorem le_iff {m m' n n' : Nat} (hm : L.indents m m') (hn : L.indents n n') :
    m ≤ n ↔ m' ≤ n' := by
  rw [← Nat.not_lt, ← Nat.not_lt, L.lt_iff hn hm]

private theorem eq_iff {m m' n n' : Nat} (hm : L.indents m m') (hn : L.indents n n') :
    m = n ↔ m' = n' := by
  have hmn := L.lt_iff hm hn
  have hnm := L.lt_iff hn hm
  omega

/-- Two lines say the same, with paired indentations and numbers. -/
structure Lines (line other : SourceLine) : Prop where
  number : L.numbers line.number other.number
  indent : L.indents line.indent other.indent
  text_eq : line.text = other.text

/-- Two open blocks hold the same, with paired indentations. -/
structure Frames (f g : Frame) : Prop where
  indent : L.indents f.indent g.indent
  header_eq : f.header = g.header
  actions_eq : f.actions = g.actions

/-- The open blocks of two readings are alike one by one. -/
abbrev Scopes (scope other : Scope) : Prop := List.Forall₂ L.Frames scope other

/-- Raw lines with the same trimmed text, and with paired indentations where they say something,
make lines that say the same. -/
theorem forall₂_sourceLinesFrom {raws others : List (List Char)}
    (h : List.Forall₂ (fun raw other ↦ trim raw = trim other ∧
      (isSilent (trim raw) = false → L.indents (indentWidth raw) (indentWidth other))) raws others)
    {m n : Nat} (hn : ∀ i, L.numbers (m + i) (n + i)) :
    List.Forall₂ L.Lines (sourceLinesFrom m raws) (sourceLinesFrom n others) := by
  induction h generalizing m n with
  | nil => exact .nil
  | @cons raw other raws others hhead _ ih =>
    have hrest : List.Forall₂ L.Lines (sourceLinesFrom (m + 1) raws)
        (sourceLinesFrom (n + 1) others) := by
      apply ih
      intro i
      rw [Nat.add_assoc, Nat.add_assoc]
      exact hn (1 + i)
    rw [sourceLinesFrom, sourceLinesFrom, SourceLine.ofRaw, SourceLine.ofRaw, ← hhead.1]
    cases hs : isSilent (trim raw) with
    | true => exact hrest
    | false => exact .cons ⟨hn 0, hhead.2 hs, rfl⟩ hrest

/-! ### Open blocks -/

namespace Frames

variable {L} {f g : Frame}

private theorem opened {m n : Nat} (h : L.indents m n) (header : Header) :
    L.Frames (.opened m header) (.opened n header) :=
  ⟨h, rfl, rfl⟩

private theorem add (h : L.Frames f g) (action : Action) : L.Frames (f.add action) (g.add action) :=
  ⟨h.indent, h.header_eq, congrArg (· ++ [action]) h.actions_eq⟩

private theorem close_eq (h : L.Frames f g) : f.close = g.close := by
  unfold Frame.close
  rw [h.header_eq, h.actions_eq]

private theorem rel_ite (h : L.Frames f g) {m n : Nat} (hi : L.indents m n) {f' g' : Frame}
    (hn : L.Frames f' g') : Option.Rel L.Frames (if f.indent = m then some f' else none)
      (if g.indent = n then some g' else none) := by
  by_cases he : f.indent = m
  · rw [if_pos he, if_pos ((L.eq_iff h.indent hi).mp he)]
    exact .some hn
  · rw [if_neg he, if_neg (fun hg ↦ he ((L.eq_iff h.indent hi).mpr hg))]
    exact .none

private theorem startArm (h : L.Frames f g) {m n : Nat} (hi : L.indents m n) (condition : String)
    (last : Bool) :
    Option.Rel L.Frames (f.startArm m condition last) (g.startArm n condition last) := by
  unfold Frame.startArm
  rw [h.header_eq, h.actions_eq]
  split
  · exact h.rel_ite hi ⟨hi, rfl, rfl⟩
  · exact .none

end Frames

namespace Scopes

variable {L} {scope other : Scope}

private theorem push (h : L.Scopes scope other) {f g : Frame} (hf : L.Frames f g) :
    Option.Rel L.Scopes (scope.push f) (other.push g) := by
  unfold Scope.push
  rw [hf.header_eq]
  cases h with
  | nil =>
    split
    · exact .none
    · exact .some (.cons hf .nil)
  | cons hhead htail => exact .some (.cons hf (.cons hhead htail))

private theorem add (h : L.Scopes scope other) (action : Action) :
    Option.Rel L.Scopes (scope.add action) (other.add action) := by
  cases h with
  | nil => exact .none
  | cons hhead htail => exact .some (.cons (hhead.add action) htail)

private theorem modify (h : L.Scopes scope other) {change change' : Frame → Option Frame}
    (hc : ∀ f g, L.Frames f g → Option.Rel L.Frames (change f) (change' g)) :
    Option.Rel L.Scopes (scope.modify change) (other.modify change') := by
  cases h with
  | nil => exact .none
  | @cons f g scope other hhead htail =>
    have hrel := hc f g hhead
    show Option.Rel L.Scopes ((change f).map (· :: scope)) ((change' g).map (· :: other))
    generalize change f = changed, change' g = changed' at hrel ⊢
    cases hrel with
    | none => exact .none
    | some hframe => exact .some (.cons hframe htail)

private theorem closeWhile (h : L.Scopes scope other) {test test' : Frame → Bool}
    (ht : ∀ f g, L.Frames f g → test f = test' g) (carried : Option Action) :
    (scope.closeWhile test carried).1 = (other.closeWhile test' carried).1 ∧
      L.Scopes (scope.closeWhile test carried).2 (other.closeWhile test' carried).2 := by
  induction h generalizing carried with
  | nil => exact ⟨rfl, .nil⟩
  | @cons f g scope other hhead htail ih =>
    -- what a closed block hands on is the same on both sides, so the next blocks stay alike
    have hframe : L.Frames (carried.elim f f.add) (carried.elim g g.add) := by
      cases carried with
      | none => exact hhead
      | some action => exact hhead.add action
    rw [Scope.closeWhile, Scope.closeWhile, ht _ _ hframe, hframe.close_eq]
    split
    · split
      · next root _ => exact ⟨congrArg (root :: ·) (ih none).1, (ih none).2⟩
      · exact ih _
    · exact ⟨rfl, .cons hframe htail⟩

end Scopes

end Likeness

/-! ### Programs being put together -/

namespace Assembly

/-- Two programs being put together are related, and so are their open blocks. -/
structure Alike (L : Likeness) (a b : Assembly) : Prop where
  program : L.programs a.program b.program
  scope : L.Scopes a.scope b.scope

namespace Alike

variable {L : Likeness} {a b : Assembly} {line other : SourceLine}

private theorem settle (h : Alike L a b) {test test' : Frame → Bool}
    (ht : ∀ f g, L.Frames f g → test f = test' g) :
    Alike L (a.settle (a.scope.closeWhile test none))
      (b.settle (b.scope.closeWhile test' none)) := by
  obtain ⟨hroots, hrest⟩ := h.scope.closeWhile ht none
  refine ⟨?_, hrest⟩
  unfold Assembly.settle
  rw [hroots]
  generalize (b.scope.closeWhile test' none).1 = roots
  have hp := h.program
  generalize a.program = p, b.program = q at hp ⊢
  induction roots generalizing p q with
  | nil => exact hp
  | cons root roots ih => exact ih _ _ (L.store root hp)

private theorem closeAll (h : Alike L a b) :
    Alike L a.closeAll b.closeAll := h.settle (fun _ _ _ ↦ rfl)

private theorem closeTo (h : Alike L a b) {m n : Nat} (hi : L.indents m n) :
    Alike L (a.closeTo m) (b.closeTo n) := by
  apply h.settle
  intro f g hf
  exact decide_eq_decide.mpr (L.le_iff hi hf.indent)

private theorem closeDeeper (h : Alike L a b) {m n : Nat} (hi : L.indents m n) :
    Alike L (a.closeDeeper m) (b.closeDeeper n) := by
  apply h.settle
  intro f g hf
  exact decide_eq_decide.mpr (L.lt_iff hi hf.indent)

private theorem complain (h : Alike L a b) {m n : Nat} (hn : L.numbers m n) (message : String) :
    Alike L (a.complain m message) (b.complain n message) :=
  ⟨L.complain message hn h.program, h.scope⟩

private theorem mention (h : Alike L a b) (component : String) :
    Alike L (a.mention component) (b.mention component) :=
  ⟨L.mention component h.program, h.scope⟩

private theorem declare (h : Alike L a b) (name value : String) :
    Alike L (a.declare name value) (b.declare name value) :=
  ⟨L.declare ⟨name, value⟩ h.program, h.scope⟩

private theorem withScope (h : Alike L a b) {changed changed' : Option Scope}
    (hc : Option.Rel L.Scopes changed changed') {instead instead' : Assembly → Assembly}
    (hi : Alike L (instead a) (instead' b)) :
    Alike L (a.withScope changed instead) (b.withScope changed' instead') := by
  cases hc with
  | none => exact hi
  | some hs => exact ⟨h.program, hs⟩

private theorem openRoot (h : Alike L a b) (hl : L.Lines line other) (header : Header) :
    Alike L (a.openRoot line header) (b.openRoot other header) :=
  h.closeAll.withScope (h.closeAll.scope.push (.opened hl.indent header)) h.closeAll

private theorem perform (h : Alike L a b) (hl : L.Lines line other) (component : Option String)
    (action : Action) :
    Alike L (a.perform line component action) (b.perform other component action) := by
  have hclosed := h.closeTo hl.indent
  have hadd := hclosed.scope.add action
  unfold Assembly.perform
  dsimp only
  generalize (a.closeTo line.indent).scope.add action = changed,
    (b.closeTo other.indent).scope.add action = changed' at hadd ⊢
  cases hadd with
  | none => exact hclosed.complain hl.number noScope
  | @some scope scope' hs =>
    have hnext : Alike L ⟨scope, (a.closeTo line.indent).program⟩
      ⟨scope', (b.closeTo other.indent).program⟩ := ⟨hclosed.program, hs⟩
    cases component with
    | none => exact hnext
    | some name => exact hnext.mention name

private theorem openControl (h : Alike L a b) (hl : L.Lines line other) (header : Header) :
    Alike L (a.openControl line header) (b.openControl other header) := by
  have hclosed := h.closeTo hl.indent
  exact hclosed.withScope (hclosed.scope.push (.opened hl.indent header))
    (hclosed.complain hl.number noScope)

private theorem arm (h : Alike L a b) (hl : L.Lines line other) (condition : String)
    (last : Bool) :
    Alike L
      ((a.closeDeeper line.indent).withScope ((a.closeDeeper line.indent).scope.modify
        (Frame.startArm line.indent condition last)) (strayArm line))
      ((b.closeDeeper other.indent).withScope ((b.closeDeeper other.indent).scope.modify
        (Frame.startArm other.indent condition last)) (strayArm other)) := by
  have hclosed := h.closeDeeper hl.indent
  apply hclosed.withScope
    (hclosed.scope.modify (fun _ _ hf ↦ hf.startArm hl.indent condition last))
  exact (hclosed.complain hl.number elseWithoutIf).closeTo hl.indent

/-- Lines that say the same do the same. -/
theorem take (h : Alike L a b) (hl : L.Lines line other) :
    Alike L (a.take line) (b.take other) := by
  unfold Assembly.take
  rw [hl.text_eq]
  cases Statement.read other.text with
  | none => exact h.complain hl.number invalidSyntax
  | some statement =>
    cases statement with
    | event component occurrence =>
      exact (h.openRoot hl (.event component occurrence)).mention component
    | procedure name parameters => exact h.openRoot hl (.procedure name parameters)
    | declare name value =>
      have hclosed := h.closeTo hl.indent
      exact (hclosed.withScope (hclosed.scope.add (.define name value)) hclosed).declare name value
    | setProperty component property value => exact h.perform hl (some component) _
    | assign target value => exact h.perform hl none _
    | callMethod component method arguments => exact h.perform hl (some component) _
    | callProcedure name arguments => exact h.perform hl none _
    | branch condition => exact h.openControl hl (.branch condition [] false)
    | loop condition => exact h.openControl hl (.loop condition)
    | forEach item list => exact h.openControl hl (.forEach item list)
    | elseIf condition => exact h.arm hl condition false
    | otherwise => exact h.arm hl "" true
    | closing => exact h.closeTo hl.indent

/-- Texts that say the same line by line do the same. -/
theorem foldl_take (h : Alike L a b) {lines others : List SourceLine}
    (hl : List.Forall₂ L.Lines lines others) :
    Alike L (lines.foldl Assembly.take a) (others.foldl Assembly.take b) :=
  List.rel_foldl (P := Alike L) (R := L.Lines) (fun _ _ ha _ _ hl ↦ ha.take hl) h hl

/-- The programs that are there at the end are related. -/
theorem finish (h : Alike L a b) : L.programs a.finish b.finish := h.closeAll.program

end Alike

end Assembly

end Blockwright.Script
