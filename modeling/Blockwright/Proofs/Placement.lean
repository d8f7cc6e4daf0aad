import Blockwright.Proofs.Offside

/-!
# Where nodes lie

Which lines make a node, and the branch that each node lies in, told from the earlier lines alone.
Nodes are named by their position in the walk over the roots of their sort, and that position is
the number of earlier lines that made a node there.
-/

namespace Blockwright.Script

/-! ### The rules -/

/-- The sort of root that the latest header opened, if there was one. -/
def latestKind? (past : List SourceLine) : Option RootKind := past.findSome? SourceLine.kind?

section rules

variable (accepted : SourceLine → Bool)

/-- Whether a line makes a node of the roots of some sort: it is accepted, it stands for a node, and
the latest header is of that sort. A declaration makes a node only inside a block. -/
def makesNode (kind : RootKind) (past : List SourceLine) (line : SourceLine) : Bool :=
  accepted line && line.node?.isSome && (line.declared?.isNone || inScope past line.indent) &&
    decide (latestKind? (line :: past) = some kind)

/-- The lines that make nodes of the roots of some sort, in order. -/
def nodeLines (kind : RootKind) : List SourceLine → List SourceLine
  | [] => []
  | line :: past =>
    nodeLines kind past ++ if makesNode accepted kind past line then [line] else []

/-- The position, in the walk over the roots of some sort, of the node that the next line makes. -/
def rank (kind : RootKind) (past : List SourceLine) : Nat := (nodeLines accepted kind past).length

/-- Of the earlier lines, `arm` opened the arm that an arm at this indentation follows; `older` are
the lines before it. -/
def PreviousArm (past : List SourceLine) (indent : Nat) (arm : SourceLine)
    (older : List SourceLine) : Prop :=
  ∃ between, past = between ++ arm :: older ∧ arm.awaitsArm ∧ accepted arm ∧
    arm.indent = indent ∧ Covers arm between

/-- The branch that a line opens: the body of the node it makes or, for the last arm of a
conditional, the alternative of the arm before. -/
inductive OpensBranch (kind : RootKind) (line : SourceLine) (past : List SourceLine) :
    Branch → Prop where
  | body (statement?_ne : line.statement? ≠ some .otherwise) :
    OpensBranch kind line past (.body (rank accepted kind past))
  | otherwise (statement?_eq : line.statement? = some .otherwise) (arm : SourceLine)
    (older : List SourceLine) (previous : PreviousArm accepted past line.indent arm older) :
    OpensBranch kind line past (.otherwise (rank accepted kind older))

/-- The branch that the node of a line lies in: that of the latest earlier line that can hold it
or, for a further arm of a conditional, the alternative of the arm before. -/
inductive LiesIn (kind : RootKind) (past : List SourceLine) (line : SourceLine) :
    Branch → Prop where
  | top (isHeader : line.isHeader) : LiesIn kind past line .top
  | held (isArm_eq : line.isArm = false) (opener : SourceLine) (older : List SourceLine)
    (heldBy : HeldBy accepted past line.indent opener older) (branch : Branch)
    (opens : OpensBranch accepted kind opener older branch) : LiesIn kind past line branch
  | arm (isArm_eq : line.isArm) (arm : SourceLine) (older : List SourceLine)
    (previous : PreviousArm accepted past line.indent arm older) :
    LiesIn kind past line (.otherwise (rank accepted kind older))

end rules

/-! ### One more line -/

private theorem latestKind?_header {line : SourceLine} {kind : RootKind}
    (h : line.kind? = some kind) (past : List SourceLine) :
    latestKind? (line :: past) = some kind := by
  rw [latestKind?, List.findSome?_cons, h]

private theorem latestKind?_other {line : SourceLine} (h : line.kind? = none)
    (past : List SourceLine) :
    latestKind? (line :: past) = latestKind? past := by
  rw [latestKind?, List.findSome?_cons, h]
  rfl

namespace SourceLine

private theorem kind?_eq_none {line : SourceLine} (h : line.isHeader = false) :
    line.kind? = none := by
  simpa [isHeader] using h

private theorem node?_of_kind? {line : SourceLine} {kind : RootKind} (h : line.kind? = some kind) :
    line.node?.isSome ∧ line.declared? = none := by
  obtain ⟨statement, hl, hk⟩ := Option.bind_eq_some_iff.mp h
  rw [node?_of_statement hl, declared?_of_statement hl]
  cases statement <;> cases hk <;> exact ⟨rfl, rfl⟩

private theorem opens_of_isArm {line : SourceLine} (h : line.isArm) : line.opens := by
  unfold isArm at h
  unfold opens
  cases hl : line.statement? with
  | none => rw [hl] at h; cases h
  | some statement =>
    rw [hl] at h
    cases statement <;> first | rfl | cases h

end SourceLine

section makesNode

variable {accepted : SourceLine → Bool} {line : SourceLine}

private theorem makesNode_header {kind : RootKind} (hk : line.kind? = some kind)
    (ha : accepted line) (other : RootKind) (past : List SourceLine) :
    makesNode accepted other past line = decide (other = kind) := by
  obtain ⟨hn, hv⟩ := SourceLine.node?_of_kind? hk
  rw [makesNode, ha, hn, hv, latestKind?_header hk]
  simp [eq_comm]

/-- Any other line makes a node of the sort of the latest header. -/
theorem makesNode_other (hk : line.kind? = none) (kind : RootKind) (past : List SourceLine) :
    makesNode accepted kind past line ↔ accepted line ∧ line.node?.isSome ∧
      (line.declared? = none ∨ inScope past line.indent) ∧
      latestKind? past = some kind := by
  rw [makesNode, latestKind?_other hk]
  simp [and_assoc]

end makesNode

section branches

variable {accepted : SourceLine → Bool} {past : List SourceLine}

private theorem ne_otherwise_of_awaitsArm {line : SourceLine} (h : line.awaitsArm) :
    line.statement? ≠ some .otherwise := by
  intro hl
  rw [SourceLine.awaitsArm_of_statement hl] at h
  cases h

private theorem OpensBranch.alternative {kind : RootKind} {line : SourceLine} {branch : Branch}
    (h : OpensBranch accepted kind line past branch) (hw : line.awaitsArm) :
    branch.alternative = .otherwise (rank accepted kind past) := by
  cases h with
  | body => rfl
  | otherwise hl => exact absurd hl (ne_otherwise_of_awaitsArm hw)

/-- The latest line that can hold what is indented one deeper than an arm is the arm before, if it
is at the same indentation and awaits one. -/
theorem previousArm_of_heldBy {line : SourceLine} {older : List SourceLine} {indent : Nat}
    (h : HeldBy accepted past (indent + 1) line older) (hi : line.indent = indent)
    (hw : line.awaitsArm) : PreviousArm accepted past indent line older := by
  obtain ⟨between, he, ⟨-, ha, -, hc⟩, -⟩ := h
  exact ⟨between, he, hw, ha, hi, hc⟩

end branches

namespace Outline

/-- Where the node of a line that is no header goes: into the innermost branch that its
indentation leaves open or, for an arm, into the alternative of the arm before. -/
inductive Lodges (o : Outline) (line : SourceLine) : Branch → Prop where
  | held (isArm_eq : line.isArm = false) (opening : Opening) (outer : List Opening)
    (openings_eq : (o.close line.indent).openings = opening :: outer) :
    Lodges o line opening.branch
  | arm (isArm_eq : line.isArm) (opening : Opening) (outer : List Opening)
    (openings_eq : (o.close (line.indent + 1)).openings = opening :: outer)
    (indent_eq : opening.line.indent = line.indent) (awaitsArm : opening.line.awaitsArm) :
    Lodges o line opening.branch.alternative

/-- What a line adds to the lines that made nodes: a header begins a root of its sort, and any
other line adds a node to the roots of the latest sort or nothing. -/
theorem Step.made_cases {o next : Outline} {line : SourceLine} (h : Step o line next) :
    (∃ kind, line.kind? = some kind ∧ o.verdict line = none ∧ next.current = some kind ∧
      ∀ other, next.made other = o.made other ++ if other = kind then [⟨line, .top⟩] else []) ∨
    (line.kind? = none ∧ next.current = o.current ∧ (∀ kind, next.made kind = o.made kind) ∧
      ¬ (o.verdict line = none ∧ line.node?.isSome ∧
        (line.declared? = none ∨ (o.close line.indent).openings ≠ []))) ∨
    (line.kind? = none ∧ next.current = o.current ∧ o.verdict line = none ∧
      line.node?.isSome ∧ (o.close line.indent).openings ≠ [] ∧
      ∃ inside, Lodges o line inside ∧ ∀ kind, next.made kind =
        o.made kind ++ if o.current = some kind then [⟨line, inside⟩] else []) := by
  have hnone (hh : line.isHeader = false) : line.kind? = none := SourceLine.kind?_eq_none hh
  have hne {opening : Opening} {outer : List Opening}
      (he : (o.close line.indent).openings = opening :: outer) :
      (o.close line.indent).openings ≠ [] := by
    rw [he]
    exact List.cons_ne_nil _ _
  cases h with
  | unrecognised hl =>
    have hn : line.node? = none := by rw [SourceLine.node?, hl]; rfl
    exact .inr (.inl ⟨by rw [SourceLine.kind?, hl]; rfl, rfl, fun _ ↦ rfl, by simp [hn]⟩)
  | header kind hk hv => exact .inl ⟨kind, hk, hv, rfl, fun _ ↦ rfl⟩
  | refused _ hh hv => exact .inr (.inl ⟨hnone hh, rfl, fun _ ↦ rfl, fun hc ↦ hv hc.1⟩)
  | silent _ hh _ _ hn =>
    refine .inr (.inl ⟨hnone hh, rfl, fun _ ↦ rfl, ?_⟩)
    rintro ⟨-, hnode, hblock⟩
    rcases hn with hn | ⟨hv, he⟩
    · rw [hn] at hnode
      cases hnode
    · rcases hblock with hb | hb
      · rw [hb] at hv
        cases hv
      · exact hb he
  | noted _ hh ho hv hn opening outer he =>
    -- Every arm opens a branch, so a line that opens none is held by the branch being filled.
    have harm : line.isArm = false := by
      by_contra hc
      rw [SourceLine.opens_of_isArm (by simpa using hc)] at ho
      cases ho
    exact .inr (.inr ⟨hnone hh, rfl, hv, hn, hne he, _, .held harm opening outer he,
      fun _ ↦ rfl⟩)
  | opened _ hh _ harm hv hn opening outer he =>
    exact .inr (.inr ⟨hnone hh, rfl, hv, hn, hne he, _, .held harm opening outer he,
      fun _ ↦ rfl⟩)
  | further condition hl hv opening he hi hw hne =>
    have hn : line.node?.isSome := by rw [SourceLine.node?_of_statement hl]; rfl
    exact .inr (.inr ⟨SourceLine.kind?_of_statement hl, rfl, hv, hn, hne, _,
      .arm (SourceLine.isArm_of_statement hl) opening _ he hi hw, fun _ ↦ rfl⟩)
  | last hl =>
    have hn : line.node? = none := SourceLine.node?_of_statement hl
    exact .inr (.inl ⟨SourceLine.kind?_of_statement hl, rfl, fun _ ↦ rfl, by simp [hn]⟩)

/-! ### Nodes of whole histories -/

/-- The sort of the latest root is that of the latest header. -/
theorem current_after (past : List SourceLine) :
    (after past).current = latestKind? past := by
  induction past with
  | nil => rfl
  | cons line past ih =>
    rcases (step_take (stacked_after past) line).made_cases with ⟨kind, hk, -, hc, -⟩ |
      ⟨hk, hc, -⟩ | ⟨hk, hc, -⟩
    · rw [latestKind?_header hk]
      exact hc
    · rw [latestKind?_other hk, ← ih]
      exact hc
    · rw [latestKind?_other hk, ← ih]
      exact hc

/-- A line is inside a block exactly when some branch is left open for it. -/
theorem inScope_iff (past : List SourceLine) (indent : Nat) :
    inScope past indent ↔ ((after past).close indent).openings ≠ [] := by
  have h := isEmpty_close_after past indent
  rw [Ne, ← List.isEmpty_iff, h]
  simp

section accepted

variable {accepted : SourceLine → Bool} {past : List SourceLine}

private theorem made_cons {line : SourceLine} (hj : Judges accepted (line :: past))
    (kind : RootKind) :
    (makesNode accepted kind past line = false ∧
      (after (line :: past)).made kind = (after past).made kind) ∨
    (makesNode accepted kind past line ∧ ∃ inside,
      (line.isHeader ∧ inside = .top ∨ line.kind? = none ∧ Lodges (after past) line inside) ∧
      (after (line :: past)).made kind = (after past).made kind ++ [⟨line, inside⟩]) := by
  have ha := hj.head
  show (_ ∧ ((after past).take line).made kind = _) ∨
    (_ ∧ ∃ inside, _ ∧ ((after past).take line).made kind = _)
  rcases (step_take (stacked_after past) line).made_cases with ⟨own, hk, hv, -, hm⟩ |
    ⟨hk, -, hm, hn⟩ | ⟨hk, -, hv, hn, hne, inside, hlodges, hm⟩
  · rw [hm, makesNode_header hk (ha.mpr hv)]
    by_cases h : kind = own
    · rw [if_pos h]
      exact .inr ⟨decide_eq_true h, .top, .inl ⟨by rw [SourceLine.isHeader, hk]; rfl, rfl⟩, rfl⟩
    · rw [if_neg h]
      exact .inl ⟨decide_eq_false h, List.append_nil _⟩
  · refine .inl ⟨?_, hm kind⟩
    rw [← Bool.not_eq_true, makesNode_other hk, ha, inScope_iff]
    exact fun hmakes ↦ hn ⟨hmakes.1, hmakes.2.1, hmakes.2.2.1⟩
  · rw [hm, ← Bool.not_eq_true, makesNode_other hk, ha, inScope_iff, current_after]
    by_cases h : latestKind? past = some kind
    · rw [if_pos h]
      exact .inr ⟨⟨hv, hn, .inr hne, h⟩, inside, .inr ⟨hk, hlodges⟩, rfl⟩
    · rw [if_neg h]
      exact .inl ⟨fun hmakes ↦ h hmakes.2.2.2, List.append_nil _⟩

/-- The lines that made nodes are those that the rules pick, in order. -/
theorem map_line_made (hj : Judges accepted past) (kind : RootKind) :
    ((after past).made kind).map Entry.line = nodeLines accepted kind past := by
  induction past with
  | nil => rfl
  | cons line past ih =>
    rw [nodeLines, ← ih hj.tail]
    rcases made_cons hj kind with ⟨hn, hm⟩ | ⟨hn, inside, -, hm⟩
    · rw [hm, hn, if_neg Bool.false_ne_true, List.append_nil]
    · rw [hm, hn, if_pos rfl, List.map_append]
      rfl

private theorem length_made (hj : Judges accepted past) (kind : RootKind) :
    ((after past).made kind).length = rank accepted kind past := by
  rw [rank, ← map_line_made hj, List.length_map]

private theorem made_grows {newer : List SourceLine} (hj : Judges accepted (newer ++ past))
    (kind : RootKind) :
    (after past).made kind <+: (after (newer ++ past)).made kind := by
  induction newer with
  | nil => exact List.prefix_rfl
  | cons line newer ih =>
    refine (ih hj.tail).trans ?_
    rw [List.cons_append] at hj ⊢
    rcases made_cons hj kind with ⟨-, hm⟩ | ⟨-, inside, -, hm⟩
    · exact ⟨[], by rw [List.append_nil, hm]⟩
    · exact ⟨[⟨line, inside⟩], hm.symm⟩

/-! ### Branches of whole histories -/

/-- The innermost branch that is left open for an indentation is the one that the latest line able
to hold it opened. -/
def Explained (accepted : SourceLine → Bool) (past : List SourceLine) : Prop :=
  ∀ indent opening outer, ((after past).close indent).openings = opening :: outer →
    ∃ kind older, latestKind? past = some kind ∧
      HeldBy accepted past indent opening.line older ∧
      OpensBranch accepted kind opening.line older opening.branch

private theorem Explained.opensBranch (h : Explained accepted past) (hj : Judges accepted past)
    {line : SourceLine} {branch : Branch} (ho : Opened (after past) line branch)
    {kind : RootKind} (hk : latestKind? (line :: past) = some kind) :
    OpensBranch accepted kind line past branch := by
  cases ho with
  | header own hown =>
    cases (latestKind?_header hown past).symm.trans hk
    rw [length_made hj]
    refine .body (fun hl ↦ ?_)
    rw [SourceLine.kind?_of_statement hl] at hown
    cases hown
  | body hh hl =>
    rw [latestKind?_other (SourceLine.kind?_eq_none hh), ← current_after] at hk
    have hp : (after past).position = ((after past).made kind).length := by rw [position, hk]
    rw [hp, length_made hj]
    exact .body hl
  | last hl opening outer he hi hw =>
    obtain ⟨own, older, hown, hheld, hopens⟩ := h _ _ _ he
    rw [latestKind?_other (SourceLine.kind?_of_statement hl)] at hk
    cases hown.symm.trans hk
    rw [hopens.alternative hw]
    exact .otherwise hl opening.line older (previousArm_of_heldBy hheld hi hw)

private theorem Explained.behind (h : Explained accepted past) {line : SourceLine}
    {indent limit : Nat} {opening : Opening} {outer : List Opening} (hh : line.isHeader = false)
    (hlimit : ∀ n, n < limit ↔ n < indent ∧ (line.isRecognised → n < line.indent))
    (hn : ¬ (line.opens ∧ accepted line ∧ line.indent < indent))
    (he : ((after past).close limit).openings = opening :: outer) :
    ∃ kind older, latestKind? (line :: past) = some kind ∧
      HeldBy accepted (line :: past) indent opening.line older ∧
      OpensBranch accepted kind opening.line older opening.branch := by
  obtain ⟨kind, older, hk, hheld, hopens⟩ := h _ _ _ he
  rw [latestKind?_other (SourceLine.kind?_eq_none hh)]
  exact ⟨kind, older, hk, heldBy_tail hh hlimit hn hheld, hopens⟩

/-- Every open branch is explained by the rules. -/
theorem explained_after (hj : Judges accepted past) : Explained accepted past := by
  induction past with
  | nil => exact fun _ _ _ h ↦ nomatch h
  | cons line past ih =>
    have ih := ih hj.tail
    have ha := hj.head
    intro indent opening outer h
    change (((after past).take line).close indent).openings = _ at h
    have hmin (n : Nat) (hr : line.isRecognised) : n < min line.indent indent ↔
        n < indent ∧ (line.isRecognised → n < line.indent) := by
      rw [Nat.lt_min]
      simp [hr, and_comm]
    rcases (step_take (stacked_after past) line).openings_cases with ⟨hl, he⟩ |
      ⟨hh, hv, ho, branch, hopened, he⟩ | ⟨hr, hh, hn, he⟩ |
      ⟨hr, hh, ho, hv, hne, branch, hopened, he⟩
    · have hr : line.isRecognised = false := by rw [SourceLine.isRecognised, hl]; rfl
      have hopens : line.opens = false := by rw [SourceLine.opens, hl]; rfl
      rw [close, closeBy, he] at h
      exact ih.behind (SourceLine.isHeader_of_unrecognised hl) (by simp [hr]) (by simp [hopens]) h
    · rw [close_header he] at h
      split at h
      · next hi =>
        cases h
        obtain ⟨kind, hk⟩ := Option.isSome_iff_exists.mp hh
        have hk := latestKind?_header hk past
        exact ⟨kind, past, hk, heldBy_head ho (ha.mpr hv) hi, ih.opensBranch hj.tail hopened hk⟩
      · cases h
    · rw [close_same he] at h
      exact ih.behind hh (hmin · hr) (fun hc ↦ hn ⟨hc.1, ha.mp hc.2.1⟩) h
    · rw [close_cons he] at h
      split at h
      · next hi =>
        cases h
        -- some branch is open around the line, so there has been a header
        obtain ⟨around, further, hc⟩ := List.exists_cons_of_ne_nil hne
        obtain ⟨kind, -, hk, -⟩ := ih _ _ _ hc
        rw [← latestKind?_other (SourceLine.kind?_eq_none hh)] at hk
        exact ⟨kind, past, hk, heldBy_head ho (ha.mpr hv) hi, ih.opensBranch hj.tail hopened hk⟩
      · next hi => exact ih.behind hh (hmin · hr) (fun hc ↦ hi hc.2.2) h

private theorem Lodges.liesIn (hj : Judges accepted past) {line : SourceLine} {inside : Branch}
    (h : Lodges (after past) line inside) {kind : RootKind}
    (hk : latestKind? past = some kind) :
    LiesIn accepted kind past line inside := by
  cases h with
  | held harm opening outer he =>
    obtain ⟨own, older, hown, hheld, hopens⟩ := explained_after hj _ _ _ he
    cases hk.symm.trans hown
    exact .held harm opening.line older hheld _ hopens
  | arm harm opening outer he hi hw =>
    obtain ⟨own, older, hown, hheld, hopens⟩ := explained_after hj _ _ _ he
    cases hk.symm.trans hown
    rw [hopens.alternative hw]
    exact .arm harm opening.line older (previousArm_of_heldBy hheld hi hw)

/-- An accepted line that stands for a node makes one; a declaration does so inside a block. -/
theorem exists_makesNode {line : SourceLine} (hj : Judges accepted (line :: past))
    (ha : accepted line) (hn : line.node?.isSome)
    (hv : line.declared? = none ∨ inScope past line.indent) :
    ∃ kind, makesNode accepted kind past line := by
  have hnone := hj.head.mp ha
  rcases (step_take (stacked_after past) line).made_cases with ⟨kind, hk, -⟩ |
    ⟨-, -, -, hsilent⟩ | ⟨hk, -, -, -, hne, -⟩
  · exact ⟨kind, by rw [makesNode_header hk ha]; exact decide_eq_true rfl⟩
  · rw [inScope_iff] at hv
    exact absurd ⟨hnone, hn, hv⟩ hsilent
  · obtain ⟨opening, outer, he⟩ := List.exists_cons_of_ne_nil hne
    obtain ⟨kind, -, hkind, -⟩ := explained_after hj.tail _ _ _ he
    exact ⟨kind, (makesNode_other hk kind past).mpr ⟨ha, hn, hv, hkind⟩⟩

/-- The entry of a line that makes a node: it is at the line's position, in the branch that the
rules name. -/
theorem exists_entry {newer : List SourceLine} {line : SourceLine}
    (hj : Judges accepted (newer ++ line :: past)) {kind : RootKind}
    (hm : makesNode accepted kind past line) : ∃ inside, LiesIn accepted kind past line inside ∧
      ((after (newer ++ line :: past)).made kind)[rank accepted kind past]? =
        some ⟨line, inside⟩ := by
  have hline : Judges accepted (line :: past) := hj.earlier
  have hlength := length_made hline.tail kind
  obtain ⟨rest, hgrows⟩ := made_grows hj kind
  rcases made_cons hline kind with ⟨hn, -⟩ | ⟨-, inside, hinside, he⟩
  · rw [hm] at hn
    cases hn
  · refine ⟨inside, ?_, ?_⟩
    · rcases hinside with ⟨hh, rfl⟩ | ⟨hk, hlodges⟩
      · exact .top hh
      · exact hlodges.liesIn hline.tail ((makesNode_other hk kind past).mp hm).2.2.2
    · rw [← hgrows, he, ← hlength, List.append_assoc]
      simp

end accepted

end Outline

end Blockwright.Script
