import Blockwright.Proofs.Lines
import Blockwright.Proofs.Notes
import Blockwright.Proofs.Offside

/-!
# Which lines are refused

The complaints about a script, told from its lines alone: a line is refused when no rule accepts
it, when it stands outside of the block it needs, or when it is an arm that continues no
conditional. Every other line is accepted.
-/

namespace Blockwright.Script

open Blockwright.Text

/-! ### Reading whole scripts -/

namespace Assembly

/-- The program being put together behind some lines, the latest of which is the first. -/
def after (past : List SourceLine) : Assembly := past.foldr (fun line a ↦ a.take line) empty

/-- The outline of some lines is that of the program they make. -/
theorem traces_after (past : List SourceLine) : Traces (after past) (Outline.after past) := by
  induction past with
  | nil => exact Traces.empty
  | cons line past ih => exact ih.take line

/-- The complaints about some lines, in order. -/
def complaints : List SourceLine → List Diagnostic
  | [] => []
  | line :: past => complaints past ++
    (((Outline.after past).verdict line).map (Diagnostic.mk line.number)).toList

/-- Every line adds the complaint about it, if there is one. -/
theorem diagnostics_after (past : List SourceLine) :
    (after past).program.diagnostics = complaints past := by
  induction past with
  | nil => rfl
  | cons line past ih =>
    have hn := congrArg Notes.diagnostics ((traces_after past).notes_take line)
    change ((after past).take line).program.diagnostics =
      (after past).program.diagnostics ++ _ at hn
    rw [ih] at hn
    exact hn

/-- Every line adds the variable that it declares. -/
theorem globals_after (past : List SourceLine) :
    (after past).program.globals = past.reverse.filterMap SourceLine.declared? := by
  induction past with
  | nil => rfl
  | cons line past ih =>
    have hn := congrArg Notes.globals ((traces_after past).notes_take line)
    change ((after past).take line).program.globals = (after past).program.globals ++ _ at hn
    rw [ih] at hn
    rw [List.reverse_cons, List.filterMap_append]
    refine hn.trans ?_
    cases hd : line.declared? <;> simp [hd]

/-- The complaint about a line is found by the line's number. -/
theorem mem_complaints {past : List SourceLine} {diagnostic : Diagnostic} :
    diagnostic ∈ complaints past ↔ ∃ newer line older, past = newer ++ line :: older ∧
      diagnostic.line = line.number ∧
      (Outline.after older).verdict line = some diagnostic.message := by
  induction past with
  | nil => simp [complaints]
  | cons line past ih =>
    rw [complaints, List.mem_append, ih, Option.mem_toList, Option.map_eq_some_iff]
    constructor
    · rintro (⟨newer, other, older, rfl, hn, hv⟩ | ⟨message, hv, rfl⟩)
      · exact ⟨line :: newer, other, older, rfl, hn, hv⟩
      · exact ⟨[], line, past, rfl, rfl, hv⟩
    · rintro ⟨newer, other, older, he, hn, hv⟩
      cases newer with
      | nil =>
        obtain ⟨rfl, rfl⟩ := List.cons.inj he
        exact .inr ⟨_, hv, by rw [← hn]⟩
      | cons first newer =>
        obtain ⟨rfl, rfl⟩ := List.cons.inj he
        exact .inl ⟨newer, other, older, rfl, hn, hv⟩

/-- Complaints come in the order of the lines, and no line has two. -/
theorem sublist_complaints (past : List SourceLine) :
    List.Sublist ((complaints past).map Diagnostic.line)
      (past.reverse.map SourceLine.number) := by
  induction past with
  | nil => exact List.Sublist.refl _
  | cons line past ih =>
    rw [complaints, List.map_append, List.reverse_cons, List.map_append]
    refine ih.append ?_
    cases (Outline.after past).verdict line with
    | none => exact List.nil_sublist _
    | some message => exact List.Sublist.refl _

end Assembly

namespace Program

/-- A script makes the program of its lines, with what is open at the end closed. -/
theorem ofScript_eq (script : String) :
    ofScript script = (Assembly.after (sourceLines script).reverse).finish := by
  rw [ofScript, Assembly.after, List.foldr_reverse]

/-- Closing what is open at the end notes nothing. -/
theorem notes_ofScript (script : String) : (ofScript script).notes =
    (Assembly.after (sourceLines script).reverse).program.notes := by
  rw [ofScript_eq]
  exact Assembly.notes_closeBy (fun _ ↦ true)

/-- The complaints about a script are those about its lines. -/
theorem diagnostics_ofScript (script : String) :
    (ofScript script).diagnostics = Assembly.complaints (sourceLines script).reverse := by
  rw [← Assembly.diagnostics_after]
  exact congrArg Notes.diagnostics (notes_ofScript script)

/-- Whether there is no complaint about a line. -/
def accepts (p : Program) (line : SourceLine) : Bool :=
  p.diagnostics.all (fun diagnostic ↦ diagnostic.line != line.number)

private theorem accepts_iff {p : Program} {line : SourceLine} :
    p.accepts line ↔ ∀ diagnostic ∈ p.diagnostics, diagnostic.line ≠ line.number := by
  simp [accepts]

end Program

private theorem eq_of_number {newer newer' older older' : List SourceLine}
    {line line' : SourceLine}
    (h : (newer ++ line :: older).Pairwise (fun line other ↦ other.number < line.number))
    (he : newer ++ line :: older = newer' ++ line' :: older')
    (hn : line.number = line'.number) : line = line' ∧ older = older' := by
  induction newer generalizing newer' with
  | nil =>
    cases newer' with
    | nil => exact List.cons.inj he
    | cons first newer' =>
      obtain ⟨rfl, rfl⟩ := List.cons.inj he
      have := (List.pairwise_cons.mp h).1 line' (by simp)
      omega
  | cons first newer ih =>
    cases newer' with
    | nil =>
      obtain ⟨rfl, rfl⟩ := List.cons.inj he
      have := (List.pairwise_cons.mp h).1 line (by simp)
      omega
    | cons other newer' => exact ih (List.pairwise_cons.mp h).2 (List.cons.inj he).2

/-- The accepted lines of a script are those that its outline does not complain about. -/
theorem judges_ofScript (script : String) :
    Outline.Judges (Program.ofScript script).accepts (sourceLines script).reverse := by
  intro newer line older he
  rw [Program.accepts_iff, Program.diagnostics_ofScript]
  constructor
  · intro hnone
    cases hv : (Outline.after older).verdict line with
    | none => rfl
    | some message =>
      have hm : (⟨line.number, message⟩ : Diagnostic) ∈
          Assembly.complaints (sourceLines script).reverse :=
        Assembly.mem_complaints.mpr ⟨newer, line, older, he, rfl, hv⟩
      exact absurd rfl (hnone _ hm)
  · intro hv diagnostic hm hn
    obtain ⟨newer', line', older', he', hn', hv'⟩ := Assembly.mem_complaints.mp hm
    have hp := List.pairwise_reverse.mpr (pairwise_number 1 (rawLines script.toList))
    change (sourceLines script).reverse.Pairwise _ at hp
    rw [he] at hp
    obtain ⟨rfl, rfl⟩ := eq_of_number hp (he.symm.trans he') (hn.symm.trans hn')
    rw [hv] at hv'
    cases hv'

/-! ### Faults -/

/-- What is wrong with a line, by the lines before it. -/
inductive Fault (accepted : SourceLine → Bool) (past : List SourceLine) (line : SourceLine) :
    String → Prop where
  /-- No rule accepts the line. -/
  | invalid (statement?_eq : line.statement? = none) : Fault accepted past line invalidSyntax
  /-- The line is an action or a control structure outside of any block. -/
  | outside (needsBlock : line.needsBlock) (inScope_eq : inScope past line.indent = false) :
    Fault accepted past line noScope
  /-- The line is an arm that continues no conditional. -/
  | stray (isArm : line.isArm) (not_continues : ¬ Continues accepted past line.indent) :
    Fault accepted past line elseWithoutIf

private theorem statement?_of_any {line : SourceLine} {test : Statement → Bool}
    (h : line.statement?.any test) :
    ∃ statement, line.statement? = some statement ∧ test statement := by
  cases hl : line.statement? with
  | none => rw [hl] at h; cases h
  | some statement => rw [hl] at h; exact ⟨statement, rfl, h⟩

/-- The complaint about a line is the one that the rules make. -/
theorem verdict_eq_some_iff {accepted : SourceLine → Bool} {past : List SourceLine}
    (hj : Outline.Judges accepted past) {line : SourceLine} {message : String} :
    (Outline.after past).verdict line = some message ↔ Fault accepted past line message := by
  have hblock := Outline.isEmpty_close_after past line.indent
  have harm := Outline.isSome_awaiting?_iff.trans (Outline.awaits_after_iff hj line.indent)
  constructor
  · intro h
    unfold Outline.verdict at h
    split at h
    · next hl =>
      cases h
      exact .invalid hl
    · next statement hl =>
      rw [hblock] at h
      split at h
      · next hb =>
        cases h
        have hb : statement.needsBlock ∧ inScope past line.indent = false := by simpa using hb
        exact .outside ((SourceLine.needsBlock_of_statement hl).trans hb.1) hb.2
      · split at h
        · next ha =>
          cases h
          rw [Bool.and_eq_true, ← Option.not_isSome, Bool.not_eq_true'] at ha
          refine .stray ((SourceLine.isArm_of_statement hl).trans ha.1) (fun hc ↦ ?_)
          rw [harm.mpr hc] at ha
          cases ha.2
        · cases h
  · intro hf
    cases hf with
    | invalid hl => rw [Outline.verdict, hl]
    | outside hb hi =>
      obtain ⟨statement, hl, hb⟩ := statement?_of_any hb
      rw [Outline.verdict_of_statement _ hl, hblock, hb, hi]
      rfl
    | stray ha hc =>
      obtain ⟨statement, hl, ha⟩ := statement?_of_any ha
      -- An arm is not asked for a block around it, so it gets no other complaint first.
      have hb : statement.needsBlock = false := by cases statement <;> first | rfl | cases ha
      have hnone : ((Outline.after past).awaiting? line.indent).isNone := by
        rw [← Option.not_isSome, Bool.not_eq_true', ← Bool.not_eq_true, harm]
        exact hc
      rw [Outline.verdict_of_statement _ hl, hb, ha, hnone]
      rfl

/-! ### Exactness -/

/-- There is a complaint with a number exactly when the raw line of that number makes a line that
is at fault. -/
theorem mem_diagnostics_iff {script : String} {n : Nat} {message : String} :
    ⟨n + 1, message⟩ ∈ (Program.ofScript script).diagnostics ↔
      ∃ raw line, (rawLines script.toList)[n]? = some raw ∧
        SourceLine.ofRaw (n + 1) raw = some line ∧
        Fault (Program.ofScript script).accepts
          (sourceLinesFrom 1 ((rawLines script.toList).take n)).reverse line message := by
  have hj := judges_ofScript script
  rw [Program.diagnostics_ofScript, Assembly.mem_complaints]
  constructor
  · rintro ⟨newer, line, older, he, hn, hv⟩
    rw [he] at hj
    -- The lines are kept from the last to the first, the text from the first to the last.
    rw [List.reverse_eq_iff, List.reverse_append, List.reverse_cons, List.append_assoc] at he
    obtain ⟨m, raw, hm, hl, ho⟩ := exists_raw_of_eq he
    obtain rfl : n = m := by
      have hnumber := (SourceLine.ofRaw_eq_some_iff.mp hl).2
      rw [hnumber] at hn
      exact Nat.succ.inj (hn.trans (Nat.add_comm 1 m))
    refine ⟨raw, line, hm, by rw [Nat.add_comm]; exact hl, ?_⟩
    rw [← ho, List.reverse_reverse]
    exact (verdict_eq_some_iff hj.earlier.tail).mp hv
  · rintro ⟨raw, line, hn, hl, hf⟩
    rw [Nat.add_comm] at hl
    obtain ⟨behind, he⟩ := exists_eq_of_raw hn hl
    have hs : (sourceLines script).reverse = behind.reverse ++ line ::
        (sourceLinesFrom 1 ((rawLines script.toList).take n)).reverse := by
      rw [sourceLines, he]
      simp
    rw [hs] at hj
    refine ⟨behind.reverse, line, _, hs, ?_, (verdict_eq_some_iff hj.earlier.tail).mpr hf⟩
    rw [(SourceLine.ofRaw_eq_some_iff.mp hl).2]
    exact Nat.add_comm n 1

/-- Complaints name lines of the script in increasing order, each at most once, and a line has a
complaint exactly when it says something and is at fault. So the header of a handler or procedure,
a declaration and a line that only closes are never refused. -/
theorem diagnostics_exact (script : String) :
    ((Program.ofScript script).diagnostics.map Diagnostic.line).Pairwise (· < ·) ∧
    (∀ diagnostic ∈ (Program.ofScript script).diagnostics, 1 ≤ diagnostic.line) ∧
    ∀ n message, ⟨n + 1, message⟩ ∈ (Program.ofScript script).diagnostics ↔
      ∃ raw, (rawLines script.toList)[n]? = some raw ∧
        trim raw ≠ [] ∧ ¬ ['/', '/'] <+: trim raw ∧
        Fault (Program.ofScript script).accepts
          (sourceLinesFrom 1 ((rawLines script.toList).take n)).reverse
          ⟨n + 1, indentWidth raw, String.ofList (trim raw)⟩ message := by
  refine ⟨?_, ?_, fun n message ↦ ?_⟩
  · rw [Program.diagnostics_ofScript]
    have hs := Assembly.sublist_complaints (sourceLines script).reverse
    rw [List.reverse_reverse] at hs
    exact (List.pairwise_map.mpr (pairwise_number 1 _)).sublist hs
  · intro diagnostic hm
    rw [Program.diagnostics_ofScript, Assembly.mem_complaints] at hm
    obtain ⟨newer, line, older, he, hn, -⟩ := hm
    have hline : line ∈ sourceLines script := by
      rw [← List.mem_reverse, he]
      simp
    rw [hn]
    exact le_number_of_mem hline
  · have hsaid (raw : List Char) : isSilent (trim raw) = false ↔
        trim raw ≠ [] ∧ ¬ ['/', '/'] <+: trim raw := by
      rw [← Bool.not_eq_true, isSilent_iff, not_or]
    rw [mem_diagnostics_iff]
    simp only [SourceLine.ofRaw_eq_some_iff, hsaid]
    constructor
    · rintro ⟨raw, _, hn, ⟨⟨hblank, hcomment⟩, rfl⟩, hf⟩
      exact ⟨raw, hn, hblank, hcomment, hf⟩
    · rintro ⟨raw, hn, hblank, hcomment, hf⟩
      exact ⟨raw, _, hn, ⟨⟨hblank, hcomment⟩, rfl⟩, hf⟩

end Blockwright.Script
