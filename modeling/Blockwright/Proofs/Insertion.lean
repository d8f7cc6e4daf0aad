import Blockwright.Proofs.Joining

/-!
# Lines put between others

A line that is blank, a comment, or nothing that a rule accepts may be put anywhere into a script.
Whatever is open there stays open, whatever the indentation of the line is: the program stays the
same, complaints about later lines move down by one, and only a line that says something gets a
complaint of its own.
-/

namespace Blockwright.Script

open Blockwright.Text

/-! ### Scripts with one more line -/

/-- A script with a line put in behind as many of its lines as the position says. -/
def withLine (position : Nat) (line script : String) : String :=
  let lines := pieces script.toList
  String.ofList (['\n'].intercalate (lines.take position ++ line.toList :: lines.drop position))

example : withLine 1 "  // note" "when A.B\r\n  x" = "when A.B\r\n  // note\n  x" := by decide

section withLine

variable {position : Nat} {line script : String}

private theorem pieces_withLine (hn : '\n' ∉ line.toList) :
    pieces (withLine position line script).toList = (pieces script.toList).take position ++
      line.toList :: (pieces script.toList).drop position := by
  rw [withLine, String.toList_ofList]
  apply pieces_intercalate
  · intro piece hm
    rw [List.mem_append, List.mem_cons] at hm
    rcases hm with hm | rfl | hm
    · exact notMem_of_mem_pieces (List.mem_of_mem_take hm)
    · exact hn
    · exact notMem_of_mem_pieces (List.mem_of_mem_drop hm)
  · simp

/-- The lines of a script that say something before a position. -/
def linesBefore (position : Nat) (script : String) : List SourceLine :=
  sourceLinesFrom 1 ((pieces script.toList).take position)

/-- The lines of a script that say something behind a position. -/
def linesBehind (position : Nat) (script : String) : List SourceLine :=
  sourceLinesFrom (position + 1) ((pieces script.toList).drop position)

/-- A position parts the lines of a script, and a line put in there comes between. -/
theorem sourceLines_withLine (hp : position ≤ script.toList.count '\n' + 1)
    (hn : '\n' ∉ line.toList) :
    sourceLines script = linesBefore position script ++ linesBehind position script ∧
    sourceLines (withLine position line script) = linesBefore position script ++
      ((SourceLine.ofRaw (position + 1) line.toList).toList ++
        (linesBehind position script).map (SourceLine.lowered 1)) := by
  have hlength : ((pieces script.toList).take position).length = position := by
    rw [List.length_take, length_pieces, Nat.min_eq_left hp]
  constructor
  · rw [sourceLines_eq, linesBefore, linesBehind]
    nth_rewrite 1 [← List.take_append_drop position (pieces script.toList)]
    rw [sourceLinesFrom_append, hlength, Nat.add_comm 1]
  · rw [sourceLines_eq, pieces_withLine hn, sourceLinesFrom_append, hlength, sourceLinesFrom,
      Nat.add_comm 1, sourceLinesFrom_add, linesBefore, linesBehind]

private theorem number_le_of_mem_linesBefore {other : SourceLine}
    (h : other ∈ linesBefore position script) : other.number ≤ position := by
  have hlt {start : Nat} {raws : List (List Char)} (hm : other ∈ sourceLinesFrom start raws) :
      other.number < start + raws.length := by
    induction raws generalizing start with
    | nil => cases hm
    | cons raw raws ih =>
      rw [sourceLinesFrom, List.mem_append, Option.mem_toList] at hm
      rw [List.length_cons]
      rcases hm with hm | hm
      · obtain ⟨-, rfl⟩ := SourceLine.ofRaw_eq_some_iff.mp hm
        show start < _
        omega
      · have := ih hm
        omega
  have := hlt h
  rw [List.length_take] at this
  omega

end withLine

/-! ### Room among the complaints -/

namespace Program

/-- A program with the complaints about lines behind a position moved down by one, and some others
put in before them. -/
def withRoom (position : Nat) (own : List Diagnostic) (p : Program) : Program :=
  { p with diagnostics := p.diagnostics.filter (fun d ↦ d.line ≤ position) ++ own ++
      (p.diagnostics.filter (fun d ↦ position < d.line)).map (Diagnostic.lowered 1) }

/-- Without complaints about lines behind the position, the others are put in at the end. -/
theorem withRoom_of_le {position : Nat} {own : List Diagnostic} {p : Program}
    (h : ∀ d ∈ p.diagnostics, d.line ≤ position) :
    p.withRoom position own = { p with diagnostics := p.diagnostics ++ own } := by
  have hbefore : p.diagnostics.filter (fun d ↦ d.line ≤ position) = p.diagnostics := by
    simpa [List.filter_eq_self] using h
  have hbehind : p.diagnostics.filter (fun d ↦ position < d.line) = [] := by
    simpa [List.filter_eq_nil_iff] using h
  rw [withRoom, hbefore, hbehind, List.map_nil, List.append_nil]

private theorem withRoom_complain {position number : Nat} {own : List Diagnostic} {p : Program}
    (h : position < number) (message : String) :
    withRoom position own { p with diagnostics := p.diagnostics ++ [⟨number, message⟩] } =
      { p.withRoom position own with
        diagnostics := (p.withRoom position own).diagnostics ++ [⟨number + 1, message⟩] } := by
  simp [withRoom, h, Nat.not_le.mpr h, Diagnostic.lowered]

/-- A program and the same program with room keep saying the same while lines behind the position
are read. -/
def roomLikeness (position : Nat) (own : List Diagnostic) : Likeness where
  indents m n := n = m
  numbers m n := position < m ∧ n = m + 1
  programs p q := q = p.withRoom position own
  lt_iff hm hn := by rw [hm, hn]
  store root h := by
    rw [h]
    cases root <;> rfl
  mention component h := by
    rw [h]
    rfl
  declare declared h := by
    rw [h]
    rfl
  complain message hn h := by
    obtain ⟨hlt, rfl⟩ := hn
    rw [h]
    exact (withRoom_complain hlt message).symm

end Program

/-! ### Reading on behind the line -/

/-- Complaints while the lines before a position are read are about these. -/
theorem Assembly.line_le_of_mem_diagnostics {position : Nat} {script : String} {d : Diagnostic}
    (h : d ∈ ((linesBefore position script).foldl take empty).program.diagnostics) :
    d.line ≤ position := by
  rw [← List.foldr_reverse] at h
  have hm : d.line ∈ (complaints (linesBefore position script).reverse).map Diagnostic.line :=
    List.mem_map_of_mem (diagnostics_after _ ▸ h)
  have hnumber := (sublist_complaints _).subset hm
  rw [List.reverse_reverse, List.mem_map] at hnumber
  obtain ⟨other, ho, he⟩ := hnumber
  rw [← he]
  exact number_le_of_mem_linesBefore ho

/-- The complaint about a line that says nothing known, if it says something. -/
def ownComplaint (number : Nat) (raw : List Char) : List Diagnostic :=
  if isSilent (trim raw) then [] else [⟨number, invalidSyntax⟩]

/-- Reading a line that says nothing known does no more than complain about it. -/
theorem Assembly.foldl_take_ofRaw {number : Nat} {raw : List Char}
    (h : isSilent (trim raw) ∨ Statement.read (String.ofList (trim raw)) = none) (a : Assembly) :
    (SourceLine.ofRaw number raw).toList.foldl take a = ⟨a.scope, { a.program with
      diagnostics := a.program.diagnostics ++ ownComplaint number raw }⟩ := by
  rw [SourceLine.ofRaw, ownComplaint]
  by_cases hs : isSilent (trim raw)
  · rw [if_pos hs, if_pos hs, List.append_nil]
    rfl
  · rw [if_neg hs, if_neg hs]
    show take _ _ = _
    rw [take, h.resolve_left hs]
    rfl

namespace Program

/-- Lines that say nothing known are transparent. A line that is blank, a comment, or accepted by no
rule may be put into a script at any position and with any indentation: the program stays the same
up to its complaints, those about lines from the position on move down by one, and there is one more
exactly when the line says something, which is about this line. -/
theorem ofScript_withLine (position : Nat) (line script : String)
    (hp : position ≤ script.toList.count '\n' + 1) (hn : '\n' ∉ line.toList)
    (hl : isSilent (trim line.toList) ∨
      Statement.read (String.ofList (trim line.toList)) = none) :
    ofScript (withLine position line script) =
      (ofScript script).withRoom position (ownComplaint (position + 1) line.toList) := by
  obtain ⟨hscript, hwith⟩ := @sourceLines_withLine position line script hp hn
  generalize hown : ownComplaint (position + 1) line.toList = own
  have hlines : List.Forall₂ (roomLikeness position own).Lines (linesBehind position script)
      ((linesBehind position script).map (SourceLine.lowered 1)) := by
    rw [List.forall₂_map_right_iff, List.forall₂_same]
    intro other ho
    have hnumber : position + 1 ≤ other.number := le_number_of_mem ho
    exact ⟨⟨by omega, rfl⟩, rfl, rfl⟩
  -- The two readings part at the line: one may complain there, and both have the same open blocks.
  have hstart : Assembly.Alike (roomLikeness position own)
      ((linesBefore position script).foldl Assembly.take Assembly.empty)
      ((SourceLine.ofRaw (position + 1) line.toList).toList.foldl Assembly.take
        ((linesBefore position script).foldl Assembly.take Assembly.empty)) := by
    rw [Assembly.foldl_take_ofRaw hl, hown,
      ← withRoom_of_le fun _ ↦ Assembly.line_le_of_mem_diagnostics]
    exact ⟨rfl, List.forall₂_same.mpr fun _ _ ↦ ⟨rfl, rfl, rfl⟩⟩
  have hwhole := (hstart.foldl_take hlines).finish
  rw [← List.foldl_append, ← List.foldl_append, ← List.foldl_append, ← hscript, ← hwith] at hwhole
  exact hwhole

/-- Between a conditional and its last arm, at a column where any known line would end both. The
complaint about the last line moves down, and the arm still finds its conditional. -/
theorem ofScript_withLine_arms :
    let script := "when A.B\n  if x then\n    call C.D\n  else\nwhat"
    3 ≤ script.toList.count '\n' + 1 ∧ '\n' ∉ "otherwise".toList ∧
    withLine 3 "otherwise" script =
      "when A.B\n  if x then\n    call C.D\notherwise\n  else\nwhat" ∧
    ofScript (withLine 3 "otherwise" script) = { ofScript script with
      diagnostics := [⟨4, invalidSyntax⟩, ⟨6, invalidSyntax⟩] } := by
  intro script
  have hread : Statement.read (String.ofList (trim "otherwise".toList)) = none := by
    decide +kernel
  have hbefore : (ofScript script).diagnostics = [⟨5, invalidSyntax⟩] := by decide +kernel
  refine ⟨by decide, by decide, by decide +kernel, ?_⟩
  rw [ofScript_withLine 3 "otherwise" script (by decide) (by decide) (.inr hread), withRoom,
    hbefore]
  rfl

end Program

end Blockwright.Script
