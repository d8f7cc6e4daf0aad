import Blockwright.Proofs.Likeness
import Blockwright.Proofs.Mentions
import Blockwright.Proofs.Pieces

/-!
# Texts behind each other

A handler or procedure ends whatever is open before it. So a text whose first known line is the
header of one may be put behind any other text: the program of the whole is what the first text
says and then what the second says, with the second's complaints about lines further down.
-/

namespace Blockwright.Script

/-- The same complaint about a line further down. -/
def Diagnostic.lowered (count : Nat) (d : Diagnostic) : Diagnostic :=
  { d with line := d.line + count }

/-- A program that says what a first program says and then what a second says, whose lines stand
further down by a count. -/
structure Program.IsJoined (first : Program) (count : Nat) (second whole : Program) : Prop where
  events_eq : whole.events = first.events ++ second.events
  procedures_eq : whole.procedures = first.procedures ++ second.procedures
  globals_eq : whole.globals = first.globals ++ second.globals
  diagnostics_eq : whole.diagnostics =
    first.diagnostics ++ second.diagnostics.map (Diagnostic.lowered count)
  pairwise_components : whole.components.Pairwise (· < ·)
  mem_components_iff : ∀ name, name ∈ whole.components ↔
    name ∈ first.components ∨ name ∈ second.components

namespace Program.IsJoined

variable {first : Program} {count : Nat}

/-- Nothing joined to a program leaves it as it is. -/
theorem empty (h : first.components.Pairwise (· < ·)) :
    IsJoined first count Program.empty first where
  events_eq := (List.append_nil _).symm
  procedures_eq := (List.append_nil _).symm
  globals_eq := (List.append_nil _).symm
  diagnostics_eq := (List.append_nil _).symm
  pairwise_components := h
  mem_components_iff := by simp [Program.empty]

/-- Programs stay joined while the same is added to the second and to the whole, with complaints
about lines further down. -/
def likeness (first : Program) (count : Nat) : Likeness where
  indents := Eq
  numbers m n := n = m + count
  programs := IsJoined first count
  lt_iff hm hn := by rw [hm, hn]
  store root h := by
    cases root with
    | event value => exact { h with events_eq := by simp [Assembly.store, h.events_eq] }
    | procedure value =>
      exact { h with procedures_eq := by simp [Assembly.store, h.procedures_eq] }
  mention component h := { h with
    pairwise_components := Ordered.pairwise_insertName component h.pairwise_components
    mem_components_iff := by
      intro name
      simp only [Ordered.mem_insertName, h.mem_components_iff]
      exact or_left_comm }
  declare declared h := { h with globals_eq := by simp [h.globals_eq] }
  complain message hn h := { h with
    diagnostics_eq := by simp [h.diagnostics_eq, hn, Diagnostic.lowered] }

end Program.IsJoined

/-! ### Open blocks before a header -/

namespace Assembly

/-- Nothing is open when everything was closed. -/
theorem scope_closeAll (a : Assembly) : a.closeAll.scope = [] := by
  have hclosed (carried : Option Action) (scope : Scope) :
      (scope.closeWhile (fun _ ↦ true) carried).2 = [] := by
    induction scope generalizing carried with
    | nil => rfl
    | cons frame scope ih =>
      rw [Scope.closeWhile, if_pos rfl]
      split
      · exact ih none
      · exact ih _
  exact hclosed none a.scope

/-- Closing everything again does nothing. -/
theorem closeAll_closeAll (a : Assembly) : a.closeAll.closeAll = a.closeAll := by
  have hs := a.scope_closeAll
  generalize a.closeAll = closed at hs ⊢
  obtain ⟨scope, program⟩ := closed
  subst hs
  rfl

private theorem closeAll_complain (number : Nat) (message : String) (a : Assembly) :
    (a.complain number message).closeAll = a.closeAll.complain number message := by
  have hstore (p : Program) (root : Root) :
      store { p with diagnostics := p.diagnostics ++ [⟨number, message⟩] } root =
        { store p root with diagnostics := (store p root).diagnostics ++ [⟨number, message⟩] } := by
    cases root <;> rfl
  exact congrArg (Assembly.mk a.scope.closeAll.2) (List.foldl_hom _ hstore)

private theorem take_closeAll {line : SourceLine} (h : line.isHeader) (a : Assembly) :
    a.closeAll.take line = a.take line := by
  have hroot (header : Header) : a.closeAll.openRoot line header = a.openRoot line header := by
    rw [openRoot, a.closeAll_closeAll]
    rfl
  obtain ⟨kind, hk⟩ := Option.isSome_iff_exists.mp h
  obtain ⟨statement, hs, hkind⟩ := Option.bind_eq_some_iff.mp hk
  have hread : Statement.read line.text = some statement := hs
  rw [take, take, hread]
  cases statement with
  | event component occurrence =>
    exact congrArg (mention component) (hroot (.event component occurrence))
  | procedure name parameters => exact hroot (.procedure name parameters)
  | _ => cases hkind

/-- Before the first known line nothing needs to be open if it is a header. -/
theorem finish_foldl_closeAll {lines : List SourceLine}
    (h : ∀ line, lines.find? SourceLine.isRecognised = some line → line.isHeader) (a : Assembly) :
    (lines.foldl take a.closeAll).finish = (lines.foldl take a).finish := by
  induction lines generalizing a with
  | nil => exact congrArg program a.closeAll_closeAll
  | cons line lines ih =>
    rw [List.foldl_cons, List.foldl_cons]
    by_cases hr : line.isRecognised
    · have hheader := h line (List.find?_cons_of_pos hr)
      rw [take_closeAll hheader]
    · -- an unknown line only complains, and the next ones still find the blocks open
      have hcomplain (a : Assembly) : a.take line = a.complain line.number invalidSyntax := by
        have hread : Statement.read line.text = none := by
          simpa [SourceLine.isRecognised, SourceLine.statement?] using hr
        rw [take, hread]
      rw [hcomplain, hcomplain, ← closeAll_complain]
      apply ih
      intro other ho
      exact h other ((List.find?_cons_of_neg hr).trans ho)

end Assembly

/-! ### Scripts -/

namespace Program

/-- A script whose first known line, if there is one, is the header of a handler or procedure may
stand behind any other script: nothing that is left open there reaches into it. -/
theorem isJoined_ofScript (script other : String)
    (h : ∀ line, (sourceLines other).find? SourceLine.isRecognised = some line → line.isHeader) :
    IsJoined (ofScript script) (1 + script.toList.count '\n') (ofScript other)
      (ofScript (script ++ "\n" ++ other)) := by
  generalize hcount : 1 + script.toList.count '\n' = count
  have hfind (line : SourceLine)
      (hl : ((sourceLines other).map (SourceLine.lowered count)).find? SourceLine.isRecognised =
        some line) : line.isHeader := by
    rw [List.find?_map] at hl
    obtain ⟨found, hf, rfl⟩ := Option.map_eq_some_iff.mp hl
    exact h found hf
  have hlines : List.Forall₂ (IsJoined.likeness (ofScript script) count).Lines (sourceLines other)
      ((sourceLines other).map (SourceLine.lowered count)) := by
    rw [List.forall₂_map_right_iff, List.forall₂_same]
    exact fun line _ ↦ ⟨rfl, rfl, rfl⟩
  -- Read alone, the second script starts from nothing; behind the first, with everything closed.
  have hstart : Assembly.Alike (IsJoined.likeness (ofScript script) count) Assembly.empty
      ((sourceLines script).foldl Assembly.take Assembly.empty).closeAll :=
    ⟨IsJoined.empty (pairwise_components_ofScript script),
      (Assembly.scope_closeAll _).symm ▸ List.Forall₂.nil⟩
  have hwhole := (hstart.foldl_take hlines).finish
  rw [Assembly.finish_foldl_closeAll hfind, ← List.foldl_append, ← hcount,
    ← sourceLines_append] at hwhole
  exact hcount ▸ hwhole

/-- Behind an open conditional, with a line that says nothing known before the header. The arm in
the second text finds no conditional in the first. -/
theorem isJoined_ofScript_open :
    (sourceLines "what\n  define P\n    else").find? SourceLine.isRecognised =
      some ⟨2, 2, "define P"⟩ ∧
    IsJoined (ofScript "when A.B\r\n    if x then") (1 + 1) (ofScript "what\n  define P\n    else")
      (ofScript ("when A.B\r\n    if x then" ++ "\n" ++ "what\n  define P\n    else")) := by
  have hfind : (sourceLines "what\n  define P\n    else").find? SourceLine.isRecognised =
      some ⟨2, 2, "define P"⟩ := by decide +kernel
  refine ⟨hfind, isJoined_ofScript "when A.B\r\n    if x then" _ ?_⟩
  intro line hl
  cases hfind.symm.trans hl
  decide +kernel

end Program

end Blockwright.Script
