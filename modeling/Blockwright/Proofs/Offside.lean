import Blockwright.Proofs.Outline

/-!
# The offside rule

Which branch a line lies in, and which lines are refused, told from the earlier lines alone. Earlier
lines are given with the latest first. An outline keeps only the openings that are still of use;
this module shows that they are the ones that the rule about earlier lines picks.
-/

namespace Blockwright.Script

/-! ### The rules -/

/-- Whether the latest header is indented less than `indent`, and so less than every recognised
line since. -/
def inScope (past : List SourceLine) (indent : Nat) : Bool :=
  match past.find? SourceLine.isHeader with
  | none => false
  | some header => decide (header.indent < indent) &&
    (past.takeWhile (fun line ↦ !line.isHeader)).all
      (fun line ↦ !line.isRecognised || decide (header.indent < line.indent))

/-- Every recognised line is no header and is indented deeper than `opener`. -/
def Covers (opener : SourceLine) (lines : List SourceLine) : Prop :=
  ∀ line ∈ lines, line.isRecognised → ¬ line.isHeader ∧ opener.indent < line.indent

section rules

variable (accepted : SourceLine → Bool)

/-- A line indented by `indent` can lie in the branch that `opener` opened, when the lines
`between` stand between the two. -/
def CanHold (indent : Nat) (between : List SourceLine) (opener : SourceLine) : Prop :=
  opener.opens ∧ accepted opener ∧ opener.indent < indent ∧ Covers opener between

/-- Of the earlier lines, `opener` is the latest in whose branch a line indented by `indent` can
lie; `older` are the lines before it. -/
def HeldBy (past : List SourceLine) (indent : Nat) (opener : SourceLine)
    (older : List SourceLine) : Prop :=
  ∃ between, past = between ++ opener :: older ∧ CanHold accepted indent between opener ∧
    ∀ nearer other farther, between = nearer ++ other :: farther →
      ¬ CanHold accepted indent nearer other

/-- An arm at an indentation continues a conditional: some accepted one was opened there, and
since then there were only deeper lines and accepted further arms, and no header. -/
def Continues (past : List SourceLine) (indent : Nat) : Prop :=
  ∃ between first older, past = between ++ first :: older ∧
    (∃ condition, first.statement? = some (.branch condition)) ∧ accepted first ∧
    first.indent = indent ∧ ∀ line ∈ between, line.isRecognised → ¬ line.isHeader ∧
      (indent < line.indent ∨ line.indent = indent ∧ accepted line ∧
        ∃ condition, line.statement? = some (.elseIf condition))

end rules

/-! ### One more line -/

namespace SourceLine

/-- A line that no rule accepts is no header. -/
theorem isHeader_of_unrecognised {line : SourceLine} (h : line.statement? = none) :
    line.isHeader = false := by
  rw [isHeader, kind?, h]
  rfl

private theorem isRecognised_of_isHeader {line : SourceLine} (h : line.isHeader) :
    line.isRecognised := by
  obtain ⟨kind, hk⟩ := Option.isSome_iff_exists.mp h
  obtain ⟨statement, hl, -⟩ := Option.bind_eq_some_iff.mp hk
  exact isRecognised_of_statement hl

private theorem awaitsArm_iff {line : SourceLine} : line.awaitsArm ↔
    (∃ condition, line.statement? = some (.branch condition)) ∨
      ∃ condition, line.statement? = some (.elseIf condition) := by
  unfold awaitsArm
  cases line.statement? with
  | none => simp
  | some statement => cases statement <;> simp [Statement.awaitsArm]

private theorem isHeader_of_awaitsArm {line : SourceLine} (h : line.awaitsArm) :
    line.isHeader = false := by
  rcases awaitsArm_iff.mp h with ⟨condition, hl⟩ | ⟨condition, hl⟩
  · exact isHeader_of_statement hl
  · exact isHeader_of_statement hl

end SourceLine

open SourceLine

private theorem inScope_header {line : SourceLine} (h : line.isHeader) (past : List SourceLine)
    (indent : Nat) : inScope (line :: past) indent = decide (line.indent < indent) := by
  rw [inScope, List.find?_cons_of_pos h, List.takeWhile_cons_of_neg (by simp [h])]
  simp

private theorem inScope_recognised {line : SourceLine} (h : line.isHeader = false)
    (hr : line.isRecognised) (past : List SourceLine) (indent : Nat) :
    inScope (line :: past) indent = inScope past (min line.indent indent) := by
  rw [inScope, inScope, List.find?_cons_of_neg (by simp [h]),
    List.takeWhile_cons_of_pos (by simp [h])]
  split
  · rfl
  · rw [List.all_cons, hr, Bool.eq_iff_iff]
    simp only [Bool.and_eq_true, decide_eq_true_eq, Bool.not_true, Bool.false_or, Nat.lt_min]
    constructor
    · rintro ⟨hi, hl, ha⟩
      exact ⟨⟨hl, hi⟩, ha⟩
    · rintro ⟨⟨hl, hi⟩, ha⟩
      exact ⟨hi, hl, ha⟩

private theorem inScope_unrecognised {line : SourceLine} (h : line.statement? = none)
    (past : List SourceLine) (indent : Nat) :
    inScope (line :: past) indent = inScope past indent := by
  have hh := isHeader_of_unrecognised h
  rw [inScope, inScope, List.find?_cons_of_neg (by simp [hh]),
    List.takeWhile_cons_of_pos (by simp [hh])]
  split
  · rfl
  · rw [List.all_cons, show line.isRecognised = false by rw [SourceLine.isRecognised, h]; rfl]
    rfl

/-! ### What a line can do to an outline -/

namespace Outline

/-- The outermost opening is that of a root and no other is, and each is indented less than those
inside it. -/
def Stacked : List Opening → Prop
  | [] => True
  | opening :: outer => opening.line.isHeader = outer.isEmpty ∧
    (∀ other ∈ outer, other.line.indent < opening.line.indent) ∧ Stacked outer

private theorem Stacked.dropWhile {openings : List Opening} (h : Stacked openings)
    (test : Opening → Bool) : Stacked (openings.dropWhile test) := by
  induction openings with
  | nil => exact h
  | cons opening outer ih =>
    rw [List.dropWhile_cons]
    split
    · exact ih h.2.2
    · exact h

private theorem Stacked.lt_of_mem_close {o : Outline} (h : Stacked o.openings) (indent : Nat) :
    ∀ opening ∈ (o.close indent).openings, opening.line.indent < indent := by
  unfold close closeBy
  generalize o.openings = openings at h
  induction openings with
  | nil => exact fun _ hm ↦ absurd hm List.not_mem_nil
  | cons first outer ih =>
    rw [List.dropWhile_cons]
    split
    · exact ih h.2.2
    · next ht =>
      have hf : first.line.indent < indent := by simpa using ht
      intro opening hm
      rcases List.mem_cons.mp hm with rfl | hm
      · exact hf
      · exact Nat.lt_trans (h.2.1 opening hm) hf

private theorem close_close (first second : Nat) (o : Outline) :
    (o.close first).close second = o.close (min first second) := by
  have hd (openings : List Opening) :
      (openings.dropWhile (fun opening ↦ decide (first ≤ opening.line.indent))).dropWhile
          (fun opening ↦ decide (second ≤ opening.line.indent)) =
        openings.dropWhile (fun opening ↦ decide (min first second ≤ opening.line.indent)) := by
    induction openings with
    | nil => rfl
    | cons opening openings ih =>
      rw [List.dropWhile_cons, List.dropWhile_cons]
      by_cases h : first ≤ opening.line.indent
      · rw [if_pos (decide_eq_true h), if_pos (decide_eq_true (by omega)), ih]
      · rw [if_neg (by simpa using h), List.dropWhile_cons]
        by_cases h' : second ≤ opening.line.indent
        · have hm : min first second = second := by omega
          rw [hm]
        · rw [if_neg (by simpa using h'), if_neg (by simp; omega)]
  unfold close closeBy
  rw [hd]

/-- What a line can do to stacked openings and the lines that made nodes. -/
inductive Step (o : Outline) (line : SourceLine) : Outline → Prop where
  /-- No rule accepts the line. -/
  | unrecognised (statement?_eq : line.statement? = none) : Step o line o
  /-- The line begins a root. -/
  | header (kind : RootKind) (kind?_eq : line.kind? = some kind)
    (verdict_eq : o.verdict line = none) : Step o line (o.begin kind line)
  /-- The line is refused; it closes like any other. -/
  | refused (recognised : line.isRecognised) (isHeader_eq : line.isHeader = false)
    (verdict_ne : o.verdict line ≠ none) : Step o line (o.close line.indent)
  /-- The line makes no node, or only declares a variable outside of any block. -/
  | silent (recognised : line.isRecognised) (isHeader_eq : line.isHeader = false)
    (opens_eq : line.opens = false) (verdict_eq : o.verdict line = none)
    (none_or : line.node? = none ∨
      line.declared?.isSome ∧ (o.close line.indent).openings = []) :
    Step o line (o.close line.indent)
  /-- The line makes a node that holds no others. -/
  | noted (recognised : line.isRecognised) (isHeader_eq : line.isHeader = false)
    (opens_eq : line.opens = false) (verdict_eq : o.verdict line = none)
    (isSome_node? : line.node?.isSome) (opening : Opening) (outer : List Opening)
    (openings_eq : (o.close line.indent).openings = opening :: outer) :
    Step o line ((o.close line.indent).record line opening.branch)
  /-- The line makes a node and opens its body. -/
  | opened (recognised : line.isRecognised) (isHeader_eq : line.isHeader = false)
    (opens_eq : line.opens) (isArm_eq : line.isArm = false) (verdict_eq : o.verdict line = none)
    (isSome_node? : line.node?.isSome) (opening : Opening) (outer : List Opening)
    (openings_eq : (o.close line.indent).openings = opening :: outer) :
    Step o line { (o.close line.indent).record line opening.branch with
      openings := ⟨line, .body o.position⟩ :: opening :: outer }
  /-- The line makes a further arm, in the alternative of the arm before, and opens its body. -/
  | further (condition : String) (statement?_eq : line.statement? = some (.elseIf condition))
    (verdict_eq : o.verdict line = none) (opening : Opening)
    (openings_eq : (o.close (line.indent + 1)).openings =
      opening :: (o.close line.indent).openings)
    (indent_eq : opening.line.indent = line.indent) (awaitsArm : opening.line.awaitsArm)
    (openings_ne : (o.close line.indent).openings ≠ []) :
    Step o line { o.record line opening.branch.alternative with
      openings := ⟨line, .body o.position⟩ :: (o.close line.indent).openings }
  /-- The line makes no node and opens the alternative of the arm before. -/
  | last (statement?_eq : line.statement? = some .otherwise)
    (verdict_eq : o.verdict line = none) (opening : Opening)
    (openings_eq : (o.close (line.indent + 1)).openings =
      opening :: (o.close line.indent).openings)
    (indent_eq : opening.line.indent = line.indent) (awaitsArm : opening.line.awaitsArm)
    (openings_ne : (o.close line.indent).openings ≠ []) :
    Step o line { o with
      openings := ⟨line, opening.branch.alternative⟩ :: (o.close line.indent).openings }

private theorem of_awaiting? {o : Outline} (hs : Stacked o.openings) {indent : Nat}
    {opening : Opening} {outer : List Opening} (h : o.awaiting? indent = some (opening, outer)) :
    (o.close (indent + 1)).openings = opening :: outer ∧ opening.line.indent = indent ∧
      opening.line.awaitsArm ∧ outer ≠ [] ∧ (o.close indent).openings = outer := by
  unfold awaiting? at h
  split at h
  · cases h
  · next first rest he =>
    split at h
    · next ht =>
      cases h
      have hi : opening.line.indent = indent ∧ opening.line.awaitsArm := by simpa using ht
      have hst : Stacked (opening :: outer) := he ▸ hs.dropWhile _
      -- What awaits an arm is no header, so something is open around it.
      have hne : outer ≠ [] := by
        rw [← List.isEmpty_eq_false_iff, ← hst.1]
        exact isHeader_of_awaitsArm hi.2
      refine ⟨he, hi.1, hi.2, hne, ?_⟩
      rw [← close_closeBy, close, closeBy, he]
      show List.dropWhile (fun opening ↦ decide (indent ≤ opening.line.indent))
        (opening :: outer) = outer
      rw [List.dropWhile_cons, if_pos (by simp [hi.1])]
      cases outer with
      | nil => rfl
      | cons second outer =>
        have hlt := hst.2.1 second List.mem_cons_self
        rw [List.dropWhile_cons, if_neg (by simp; omega)]
    · cases h

private theorem step_needsBlock {o : Outline} {line : SourceLine} {statement : Statement}
    (hl : line.statement? = some statement) (hb : statement.needsBlock) :
    Step o line (o.place line statement) := by
  have hk : statement.kind? = none := by cases statement <;> cases hb <;> rfl
  have ha : statement.isArm = false := by cases statement <;> cases hb <;> rfl
  have hn : statement.node?.isSome := by cases statement <;> cases hb <;> rfl
  have hr : line.isRecognised := isRecognised_of_statement hl
  have hh : line.isHeader = false := by rw [isHeader_of_statement hl, hk]; rfl
  have hv := verdict_of_statement o hl
  rw [hb, ha, Bool.true_and, Bool.false_and] at hv
  unfold place
  dsimp only
  cases he : (o.close line.indent).openings with
  | nil =>
    rw [he] at hv
    exact .refused hr hh (by rw [hv]; exact Option.some_ne_none _)
  | cons opening outer =>
    rw [he] at hv
    have hnode : line.node?.isSome := by rw [SourceLine.node?, hl]; exact hn
    dsimp only
    rw [if_pos hn]
    cases ho : statement.opens with
    | false =>
      have hopens : line.opens = false := (opens_of_statement hl).trans ho
      exact .noted hr hh hopens hv hnode opening outer he
    | true =>
      have hopens : line.opens = true := (opens_of_statement hl).trans ho
      have harm : line.isArm = false := (isArm_of_statement hl).trans ha
      exact .opened hr hh hopens harm hv hnode opening outer he

private theorem step_declare {o : Outline} {line : SourceLine} {name value : String}
    (hl : line.statement? = some (.declare name value)) :
    Step o line (o.place line (.declare name value)) := by
  have hr : line.isRecognised := isRecognised_of_statement hl
  have hopens : line.opens = false := opens_of_statement hl
  have hv : o.verdict line = none := verdict_of_statement o hl
  unfold place
  dsimp only
  cases he : (o.close line.indent).openings with
  | nil =>
    have hvariable : line.declared?.isSome := by rw [declared?_of_statement hl]; rfl
    exact .silent hr (isHeader_of_statement hl) hopens hv (.inr ⟨hvariable, he⟩)
  | cons opening outer =>
    have hnode : line.node?.isSome := by rw [node?_of_statement hl]; rfl
    exact .noted hr (isHeader_of_statement hl) hopens hv hnode opening outer he

private theorem step_closing {o : Outline} {line : SourceLine}
    (hl : line.statement? = some .closing) : Step o line (o.place line .closing) := by
  have hr : line.isRecognised := isRecognised_of_statement hl
  have hopens : line.opens = false := opens_of_statement hl
  have hnode : line.node? = none := node?_of_statement hl
  have hp : o.place line .closing = o.close line.indent := by
    unfold place
    dsimp only
    split <;> rfl
  rw [hp]
  exact .silent hr (isHeader_of_statement hl) hopens (verdict_of_statement o hl) (.inl hnode)

private theorem step_turn {o : Outline} (hs : Stacked o.openings) {line : SourceLine}
    {statement : Statement} (hl : line.statement? = some statement) (ha : statement.isArm) :
    Step o line (o.turn line statement) := by
  have hk : statement.kind? = none := by cases statement <;> cases ha <;> rfl
  have hb : statement.needsBlock = false := by cases statement <;> cases ha <;> rfl
  have hr : line.isRecognised := isRecognised_of_statement hl
  have hh : line.isHeader = false := by rw [isHeader_of_statement hl, hk]; rfl
  have hv := verdict_of_statement o hl
  rw [hb, ha, Bool.false_and, Bool.true_and] at hv
  unfold turn
  cases hw : o.awaiting? line.indent with
  | none =>
    rw [hw] at hv
    exact .refused hr hh (by rw [hv]; exact Option.some_ne_none _)
  | some found =>
    obtain ⟨opening, outer⟩ := found
    rw [hw] at hv
    obtain ⟨hm, hi, hawaits, hne, rfl⟩ := of_awaiting? hs hw
    cases statement with
    | elseIf condition => exact .further condition hl hv opening hm hi hawaits hne
    | otherwise => exact .last hl hv opening hm hi hawaits hne
    | _ => cases ha

/-- Every line takes one of the steps. -/
theorem step_take {o : Outline} (hs : Stacked o.openings) (line : SourceLine) :
    Step o line (o.take line) := by
  unfold take
  cases hl : line.statement? with
  | none => exact .unrecognised hl
  | some statement =>
    have hk : line.kind? = statement.kind? := by rw [SourceLine.kind?, hl]; rfl
    have hv := verdict_of_statement o hl
    cases statement with
    | event component occurrence => exact .header .event hk hv
    | procedure name parameters => exact .header .procedure hk hv
    | declare name value => exact step_declare hl
    | elseIf condition => exact step_turn hs hl rfl
    | otherwise => exact step_turn hs hl rfl
    | closing => exact step_closing hl
    | _ => exact step_needsBlock hl rfl

/-- The branch that a line opens: the body of its node, which comes next in the walk or, for the
last arm of a conditional, the alternative of the arm before. -/
inductive Opened (o : Outline) (line : SourceLine) : Branch → Prop where
  | header (kind : RootKind) (kind?_eq : line.kind? = some kind) :
    Opened o line (.body (o.made kind).length)
  | body (isHeader_eq : line.isHeader = false) (statement?_ne : line.statement? ≠ some .otherwise) :
    Opened o line (.body o.position)
  | last (statement?_eq : line.statement? = some .otherwise) (opening : Opening)
    (outer : List Opening) (openings_eq : (o.close (line.indent + 1)).openings = opening :: outer)
    (indent_eq : opening.line.indent = line.indent) (awaitsArm : opening.line.awaitsArm) :
    Opened o line opening.branch.alternative

/-- What a line leaves open: a header only its own branch; any other line that is recognised
closes by its indentation, and opens its branch inside of what is left if it opens one and is
accepted. -/
theorem Step.openings_cases {o next : Outline} {line : SourceLine} (h : Step o line next) :
    (line.statement? = none ∧ next.openings = o.openings) ∨
      (line.isHeader ∧ o.verdict line = none ∧ line.opens ∧
        ∃ branch, Opened o line branch ∧ next.openings = [⟨line, branch⟩]) ∨
      (line.isRecognised ∧ line.isHeader = false ∧ ¬ (line.opens ∧ o.verdict line = none) ∧
        next.openings = (o.close line.indent).openings) ∨
      (line.isRecognised ∧ line.isHeader = false ∧ line.opens ∧ o.verdict line = none ∧
        (o.close line.indent).openings ≠ [] ∧ ∃ branch, Opened o line branch ∧
          next.openings = ⟨line, branch⟩ :: (o.close line.indent).openings) := by
  cases h with
  | unrecognised hl => exact .inl ⟨hl, rfl⟩
  | header kind hk hv =>
    refine .inr (.inl ⟨by rw [SourceLine.isHeader, hk]; rfl, hv, ?_, _, .header kind hk, rfl⟩)
    obtain ⟨statement, hl, hs⟩ := Option.bind_eq_some_iff.mp hk
    rw [SourceLine.opens, hl]
    cases statement <;> cases hs <;> rfl
  | refused hr hh hv => exact .inr (.inr (.inl ⟨hr, hh, fun ha ↦ hv ha.2, rfl⟩))
  | silent hr hh ho => exact .inr (.inr (.inl ⟨hr, hh, by simp [ho], rfl⟩))
  | noted hr hh ho => exact .inr (.inr (.inl ⟨hr, hh, by simp [ho], rfl⟩))
  | opened hr hh ho harm hv _ opening outer he =>
    have hne : line.statement? ≠ some .otherwise := by
      intro hl
      rw [isArm_of_statement hl] at harm
      cases harm
    refine .inr (.inr (.inr ⟨hr, hh, ho, hv, ?_, _, .body hh hne, by rw [he]⟩))
    rw [he]
    exact List.cons_ne_nil _ _
  | further condition hl hv _ _ _ _ hne =>
    have hother : line.statement? ≠ some .otherwise := by simp [hl]
    have hh : line.isHeader = false := isHeader_of_statement hl
    exact .inr (.inr (.inr ⟨isRecognised_of_statement hl, hh, opens_of_statement hl, hv, hne, _,
      .body hh hother, rfl⟩))
  | last hl hv opening he hi hw hne =>
    exact .inr (.inr (.inr ⟨isRecognised_of_statement hl, isHeader_of_statement hl,
      opens_of_statement hl, hv, hne, _, .last hl opening _ he hi hw, rfl⟩))

/-- Every line leaves stacked openings. -/
theorem Stacked.take {o : Outline} (h : Stacked o.openings) (line : SourceLine) :
    Stacked (o.take line).openings := by
  have hclose : Stacked (o.close line.indent).openings := h.dropWhile _
  have hlt := h.lt_of_mem_close line.indent
  rcases (step_take h line).openings_cases with ⟨-, he⟩ | ⟨hh, -, -, branch, -, he⟩ |
    ⟨-, -, -, he⟩ | ⟨-, hh, -, -, hne, branch, -, he⟩
  · rw [he]
    exact h
  · rw [he]
    exact ⟨hh, fun _ hm ↦ absurd hm List.not_mem_nil, trivial⟩
  · rw [he]
    exact hclose
  · rw [he]
    exact ⟨hh.trans (List.isEmpty_eq_false_iff.mpr hne).symm, hlt, hclose⟩

/-! ### Whole histories -/

/-- The outline of some lines, the latest of which is the first. -/
def after (past : List SourceLine) : Outline :=
  past.foldr (fun line o ↦ o.take line) empty

/-- Every history leaves stacked openings. -/
theorem stacked_after (past : List SourceLine) : Stacked (after past).openings := by
  induction past with
  | nil => trivial
  | cons line past ih => exact ih.take line

/-- What is still open behind a header when lines indented by `indent` close. -/
theorem close_header {next : Outline} {line : SourceLine} {branch : Branch}
    (h : next.openings = [⟨line, branch⟩]) (indent : Nat) :
    (next.close indent).openings = if line.indent < indent then [⟨line, branch⟩] else [] := by
  show next.openings.dropWhile (fun opening ↦ decide (indent ≤ opening.line.indent)) = _
  rw [h, List.dropWhile_cons]
  by_cases hi : line.indent < indent
  · rw [if_neg (by simpa using hi), if_pos hi]
  · rw [if_pos (by simpa using hi), if_neg hi]
    rfl

/-- What is still open behind a line that opened a branch inside of others. -/
theorem close_cons {o next : Outline} {line : SourceLine} {branch : Branch}
    (h : next.openings = ⟨line, branch⟩ :: (o.close line.indent).openings) (indent : Nat) :
    (next.close indent).openings =
      if line.indent < indent then ⟨line, branch⟩ :: (o.close line.indent).openings
      else (o.close (min line.indent indent)).openings := by
  show next.openings.dropWhile (fun opening ↦ decide (indent ≤ opening.line.indent)) = _
  rw [h, List.dropWhile_cons, ← close_close]
  by_cases hi : line.indent < indent
  · rw [if_neg (by simpa using hi), if_pos hi]
  · rw [if_pos (by simpa using hi), if_neg hi]
    rfl

/-- What is still open behind a line that opened no branch. -/
theorem close_same {o next : Outline} {line : SourceLine}
    (h : next.openings = (o.close line.indent).openings) (indent : Nat) :
    (next.close indent).openings = (o.close (min line.indent indent)).openings := by
  rw [← close_close]
  show next.openings.dropWhile _ = _
  rw [h]
  rfl

/-- A line is inside a block exactly when the latest header says so. -/
theorem isEmpty_close_after (past : List SourceLine) (indent : Nat) :
    ((after past).close indent).openings.isEmpty = !inScope past indent := by
  induction past generalizing indent with
  | nil => rfl
  | cons line past ih =>
    show (((after past).take line).close indent).openings.isEmpty = _
    rcases (step_take (stacked_after past) line).openings_cases with ⟨hl, he⟩ |
      ⟨hh, -, -, branch, -, he⟩ | ⟨hr, hh, -, he⟩ | ⟨hr, hh, -, -, hne, branch, -, he⟩
    · rw [inScope_unrecognised hl, ← ih, close, closeBy, he]
      rfl
    · rw [inScope_header hh, close_header he]
      by_cases hi : line.indent < indent
      · rw [if_pos hi, decide_eq_true hi]
        rfl
      · rw [if_neg hi, decide_eq_false hi]
        rfl
    · rw [close_same he, inScope_recognised hh hr, ih]
    · rw [close_cons he, inScope_recognised hh hr, ← ih]
      by_cases hi : line.indent < indent
      · rw [if_pos hi, Nat.min_eq_left (Nat.le_of_lt hi), List.isEmpty_eq_false_iff.mpr hne]
        rfl
      · rw [if_neg hi]

section accepted

variable {accepted : SourceLine → Bool}

/-- Of some lines, the accepted ones are those without a complaint. -/
def Judges (accepted : SourceLine → Bool) (past : List SourceLine) : Prop :=
  ∀ newer line older, past = newer ++ line :: older →
    (accepted line ↔ (after older).verdict line = none)

/-- The latest line is judged by the lines before it. -/
theorem Judges.head {line : SourceLine} {past : List SourceLine}
    (h : Judges accepted (line :: past)) :
    accepted line ↔ (after past).verdict line = none := h [] line past rfl

/-- Earlier lines are judged in the same way. -/
theorem Judges.earlier {newer past : List SourceLine} (h : Judges accepted (newer ++ past)) :
    Judges accepted past := by
  intro nearer line older he
  refine h (newer ++ nearer) line older ?_
  rw [he, List.append_assoc]

/-- The lines before the latest are judged in the same way. -/
theorem Judges.tail {line : SourceLine} {past : List SourceLine}
    (h : Judges accepted (line :: past)) : Judges accepted past := by
  rw [← List.singleton_append] at h
  exact h.earlier

/-- The latest line holds what is indented deeper, if it is accepted and opens a branch. -/
theorem heldBy_head {line : SourceLine} {past : List SourceLine} {indent : Nat}
    (ho : line.opens) (ha : accepted line) (hi : line.indent < indent) :
    HeldBy accepted (line :: past) indent line past := by
  refine ⟨[], rfl, ⟨ho, ha, hi, fun _ hm ↦ absurd hm List.not_mem_nil⟩, ?_⟩
  intro nearer other farther he
  simp at he

/-- A line that does not hold what is indented by `indent` itself leaves that to an earlier one,
which has to be indented less than both. -/
theorem heldBy_tail {line opener : SourceLine} {past older : List SourceLine}
    {indent limit : Nat} (hh : line.isHeader = false)
    (hlimit : ∀ n, n < limit ↔ n < indent ∧ (line.isRecognised → n < line.indent))
    (hn : ¬ (line.opens ∧ accepted line ∧ line.indent < indent))
    (h : HeldBy accepted past limit opener older) :
    HeldBy accepted (line :: past) indent opener older := by
  obtain ⟨between, rfl, ⟨ho, ha, hi, hc⟩, hlatest⟩ := h
  have hb := (hlimit _).mp hi
  refine ⟨line :: between, rfl, ⟨ho, ha, hb.1, ?_⟩, ?_⟩
  · intro other hm hr
    rcases List.mem_cons.mp hm with rfl | hm
    · exact ⟨by simp [hh], hb.2 hr⟩
    · exact hc other hm hr
  · intro nearer other farther he hcan
    cases nearer with
    | nil =>
      cases he
      exact hn ⟨hcan.1, hcan.2.1, hcan.2.2.1⟩
    | cons first nearer =>
      obtain ⟨rfl, rfl⟩ := List.cons.inj he
      refine hlatest nearer other farther rfl ⟨hcan.1, hcan.2.1, ?_, fun l hm ↦ ?_⟩
      · exact (hlimit _).mpr ⟨hcan.2.2.1, fun hr ↦ (hcan.2.2.2 line List.mem_cons_self hr).2⟩
      · exact hcan.2.2.2 l (List.mem_cons_of_mem _ hm)

private theorem continues_cons {line : SourceLine} {past : List SourceLine} {indent : Nat} :
    Continues accepted (line :: past) indent ↔
      ((∃ condition, line.statement? = some (.branch condition)) ∧ accepted line ∧
        line.indent = indent) ∨
      ((line.isRecognised → ¬ line.isHeader ∧ (indent < line.indent ∨ line.indent = indent ∧
        accepted line ∧ ∃ condition, line.statement? = some (.elseIf condition))) ∧
        Continues accepted past indent) := by
  constructor
  · rintro ⟨between, first, older, he, hs, ha, hi, hb⟩
    cases between with
    | nil =>
      cases he
      exact .inl ⟨hs, ha, hi⟩
    | cons other between =>
      obtain ⟨rfl, rfl⟩ := List.cons.inj he
      refine .inr ⟨hb line List.mem_cons_self, between, first, older, rfl, hs, ha, hi, ?_⟩
      exact fun l hm ↦ hb l (List.mem_cons_of_mem _ hm)
  · rintro (⟨hs, ha, hi⟩ | ⟨hline, between, first, older, rfl, hs, ha, hi, hb⟩)
    · exact ⟨[], line, past, rfl, hs, ha, hi, fun _ hm ↦ absurd hm List.not_mem_nil⟩
    · refine ⟨line :: between, first, older, rfl, hs, ha, hi, fun l hm ↦ ?_⟩
      rcases List.mem_cons.mp hm with rfl | hm
      · exact hline
      · exact hb l hm

/-- Some opening awaits an arm at an indentation: it is the innermost one when what is deeper is
closed. -/
def Awaits (o : Outline) (indent : Nat) : Prop :=
  ∃ opening outer, (o.close (indent + 1)).openings = opening :: outer ∧
    opening.line.indent = indent ∧ opening.line.awaitsArm

/-- Arms are taken by the opening that awaits them. -/
theorem isSome_awaiting?_iff {o : Outline} {indent : Nat} :
    (o.awaiting? indent).isSome ↔ Awaits o indent := by
  have hc : o.closeBy (fun n ↦ indent < n) = o.close (indent + 1) := rfl
  rw [awaiting?, hc, Awaits]
  cases (o.close (indent + 1)).openings with
  | nil => simp
  | cons opening outer =>
    dsimp only
    split
    · next h => simpa using h
    · next h => simpa using h

private theorem not_awaits_of_le {o next : Outline} (hs : Stacked o.openings) {line : SourceLine}
    (h : next.openings = (o.close line.indent).openings) {indent : Nat}
    (hi : line.indent ≤ indent) : ¬ Awaits next indent := by
  rintro ⟨opening, outer, hc, hindent, -⟩
  rw [close_same h, Nat.min_eq_left (by omega)] at hc
  have hlt := hs.lt_of_mem_close line.indent opening (by rw [hc]; exact List.mem_cons_self)
  omega

private theorem awaits_iff_of_le {o next : Outline} {line : SourceLine} {branch : Branch}
    (h : next.openings = ⟨line, branch⟩ :: (o.close line.indent).openings) {indent : Nat}
    (hi : line.indent ≤ indent) : Awaits next indent ↔ line.indent = indent ∧ line.awaitsArm := by
  rw [Awaits, close_cons h, if_pos (by omega)]
  constructor
  · rintro ⟨opening, outer, hc, hindent, hw⟩
    cases hc
    exact ⟨hindent, hw⟩
  · rintro ⟨hindent, hw⟩
    exact ⟨_, _, rfl, hindent, hw⟩

private theorem continues_deeper {line : SourceLine} {past : List SourceLine} {indent : Nat}
    (hh : line.isHeader = false) (hi : indent < line.indent) :
    Continues accepted (line :: past) indent ↔ Continues accepted past indent := by
  rw [continues_cons]
  constructor
  · rintro (⟨-, -, he⟩ | ⟨-, hc⟩)
    · omega
    · exact hc
  · exact fun hc ↦ .inr ⟨fun _ ↦ ⟨by simp [hh], .inl hi⟩, hc⟩

private theorem continues_level {line : SourceLine} {past : List SourceLine} {indent : Nat}
    (hr : line.isRecognised) (hh : line.isHeader = false) (hi : line.indent ≤ indent) :
    Continues accepted (line :: past) indent ↔ line.indent = indent ∧ accepted line ∧
      ((∃ condition, line.statement? = some (.branch condition)) ∨
        (∃ condition, line.statement? = some (.elseIf condition)) ∧
          Continues accepted past indent) := by
  rw [continues_cons]
  constructor
  · rintro (⟨hs, ha, hindent⟩ | ⟨hline, hc⟩)
    · exact ⟨hindent, ha, .inl hs⟩
    · obtain ⟨-, hd | ⟨hindent, ha, hs⟩⟩ := hline hr
      · omega
      · exact ⟨hindent, ha, .inr ⟨hs, hc⟩⟩
  · rintro ⟨hindent, ha, hs | ⟨hs, hc⟩⟩
    · exact .inl ⟨hs, ha, hindent⟩
    · exact .inr ⟨fun _ ↦ ⟨by simp [hh], .inr ⟨hindent, ha, hs⟩⟩, hc⟩

private theorem not_continues_header {line : SourceLine} {past : List SourceLine} {indent : Nat}
    (hh : line.isHeader) : ¬ Continues accepted (line :: past) indent := by
  rw [continues_cons]
  rintro (⟨⟨condition, hs⟩, -⟩ | ⟨hc, -⟩)
  · rw [isHeader_of_statement hs] at hh
    cases hh
  · exact (hc (isRecognised_of_isHeader hh)).1 hh

private theorem continues_unrecognised {line : SourceLine} {past : List SourceLine} {indent : Nat}
    (hl : line.statement? = none) :
    Continues accepted (line :: past) indent ↔ Continues accepted past indent := by
  have hr : line.isRecognised = false := by rw [isRecognised, hl]; rfl
  rw [continues_cons, hl]
  simp [hr]

private theorem awaits_of_elseIf {o : Outline} {line : SourceLine} {condition : String}
    (hl : line.statement? = some (.elseIf condition)) (hv : o.verdict line = none) :
    Awaits o line.indent := by
  rw [← isSome_awaiting?_iff]
  have hverdict := verdict_of_statement o hl
  rw [hv] at hverdict
  cases hw : o.awaiting? line.indent with
  | none => rw [hw] at hverdict; cases hverdict
  | some found => rfl

/-- An opening awaits an arm exactly when the arm continues a conditional. -/
theorem awaits_after_iff {past : List SourceLine} (hj : Judges accepted past) (indent : Nat) :
    Awaits (after past) indent ↔ Continues accepted past indent := by
  induction past with
  | nil =>
    constructor
    · rintro ⟨opening, outer, hc, -⟩
      cases hc
    · rintro ⟨between, first, older, he, -⟩
      simp at he
  | cons line past ih =>
    have ih := ih hj.tail
    have hs := stacked_after past
    show Awaits ((after past).take line) indent ↔ _
    rcases (step_take hs line).openings_cases with ⟨hl, he⟩ | ⟨hh, -, -, branch, -, he⟩ |
      ⟨hr, hh, hn, he⟩ | ⟨hr, hh, -, hv, -, branch, -, he⟩
    · rw [continues_unrecognised hl, ← ih, Awaits, Awaits, close, closeBy, he]
      rfl
    · refine iff_of_false ?_ (not_continues_header hh)
      rintro ⟨opening, outer, hc, -, hw⟩
      rw [close_header he] at hc
      split at hc
      · cases hc
        rw [isHeader_of_awaitsArm hw] at hh
        cases hh
      · cases hc
    · by_cases hi : indent < line.indent
      · rw [continues_deeper hh hi, ← ih, Awaits, Awaits, close_same he, Nat.min_eq_right hi]
      · refine iff_of_false (not_awaits_of_le hs he (by omega)) ?_
        rw [continues_level hr hh (by omega)]
        -- the line opened nothing, so it is no accepted arm
        rintro ⟨-, ha, ⟨condition, hl⟩ | ⟨⟨condition, hl⟩, -⟩⟩
        · exact hn ⟨opens_of_statement hl, hj.head.mp ha⟩
        · exact hn ⟨opens_of_statement hl, hj.head.mp ha⟩
    · by_cases hi : indent < line.indent
      · rw [continues_deeper hh hi, ← ih, Awaits, Awaits, close_cons he, if_neg (by omega),
          Nat.min_eq_right hi]
      · rw [awaits_iff_of_le he (by omega), continues_level hr hh (by omega), awaitsArm_iff, ← ih]
        constructor
        · rintro ⟨rfl, hl | ⟨condition, hl⟩⟩
          · exact ⟨rfl, hj.head.mpr hv, .inl hl⟩
          · exact ⟨rfl, hj.head.mpr hv, .inr ⟨⟨condition, hl⟩, awaits_of_elseIf hl hv⟩⟩
        · rintro ⟨hindent, -, hl | ⟨hl, -⟩⟩
          · exact ⟨hindent, .inl hl⟩
          · exact ⟨hindent, .inr hl⟩

end accepted

end Outline

end Blockwright.Script
