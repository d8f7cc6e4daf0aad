import Blockwright.Proofs.Outline

/-!
# What a program notes besides its roots

Variables, components and complaints are noted line by line. Closing blocks notes nothing, and what
a line notes follows from what it says and from the complaint about it that the outline tells.
-/

namespace Blockwright.Script

/-! ### Notes -/

/-- What a program holds besides its roots. -/
structure Notes where
  globals : List Variable
  components : List String
  diagnostics : List Diagnostic

/-- The notes of a program. -/
def Program.notes (p : Program) : Notes := ⟨p.globals, p.components, p.diagnostics⟩

/-- The notes with a variable, a component and a complaint added, as far as there are any. -/
def Notes.add (notes : Notes) (declared : Option Variable) (component : Option String)
    (complaint : Option Diagnostic) : Notes where
  globals := notes.globals ++ declared.toList
  components := component.elim notes.components
    (fun name ↦ Ordered.insertName name notes.components)
  diagnostics := notes.diagnostics ++ complaint.toList

private theorem Notes.add_none (notes : Notes) : notes.add none none none = notes := by
  rw [add, Option.toList_none, Option.toList_none, List.append_nil, List.append_nil]
  rfl

/-- The component that a statement names, if it names one. -/
def Statement.component? : Statement → Option String
  | event component _ => some component
  | setProperty component _ _ => some component
  | callMethod component _ _ => some component
  | _ => none

namespace SourceLine

/-- The component that a line names, if it names one. -/
def component? (line : SourceLine) : Option String := line.statement?.bind Statement.component?

/-- A line names the component that its statement names. -/
theorem component?_of_statement {line : SourceLine} {statement : Statement}
    (h : line.statement? = some statement) : line.component? = statement.component? := by
  rw [component?, h]
  rfl

end SourceLine

namespace Assembly

variable {a : Assembly}

/-- Closing notes nothing. -/
theorem notes_closeBy (test : Nat → Bool) : (a.closeBy test).program.notes = a.program.notes := by
  obtain ⟨_, _, h⟩ := program_closeBy (a := a) test
  rw [h]
  rfl

private theorem notes_complain (number : Nat) (message : String) :
    (a.complain number message).program.notes =
      a.program.notes.add none none (some ⟨number, message⟩) := by
  rw [Notes.add, Option.toList_none, List.append_nil]
  rfl

private theorem notes_mention (component : String) :
    (a.mention component).program.notes = a.program.notes.add none (some component) none := by
  rw [Notes.add, Option.toList_none, Option.toList_none, List.append_nil, List.append_nil]
  rfl

private theorem notes_declare (name value : String) :
    (a.declare name value).program.notes =
      a.program.notes.add (some ⟨name, value⟩) none none := by
  rw [Notes.add, Option.toList_none, List.append_nil]
  rfl

end Assembly

/-! ### What a line notes -/

namespace Traces

variable {a : Assembly} {o : Outline} {line : SourceLine}

private theorem isEmpty_scope (h : Traces a o) : a.scope.isEmpty = o.openings.isEmpty := by
  rw [Bool.eq_iff_iff, List.isEmpty_iff, List.isEmpty_iff]
  exact h.scope_eq_nil_iff

private theorem notes_perform (h : Traces a o) (component : Option String) (action : Action) :
    (a.perform line component action).program.notes =
      if (o.close line.indent).openings.isEmpty then
        a.program.notes.add none none (some ⟨line.number, noScope⟩)
      else a.program.notes.add none component none := by
  have hn : (a.closeTo line.indent).program.notes = a.program.notes :=
    Assembly.notes_closeBy (fun n ↦ line.indent ≤ n)
  rw [← isEmpty_scope (h.closeTo line.indent), ← hn, Assembly.perform]
  cases hs : (a.closeTo line.indent).scope with
  | nil => exact Assembly.notes_complain _ _
  | cons frame outer =>
    cases component with
    | none => exact (Notes.add_none _).symm
    | some name => exact Assembly.notes_mention name

private theorem notes_openControl (h : Traces a o) {header : Header} (hr : header.isRoot = false) :
    (a.openControl line header).program.notes =
      if (o.close line.indent).openings.isEmpty then
        a.program.notes.add none none (some ⟨line.number, noScope⟩)
      else a.program.notes.add none none none := by
  have hn : (a.closeTo line.indent).program.notes = a.program.notes :=
    Assembly.notes_closeBy (fun n ↦ line.indent ≤ n)
  have hh : (Frame.opened line.indent header).header.isRoot = false := hr
  rw [← isEmpty_scope (h.closeTo line.indent), ← hn, Assembly.openControl, Scope.push, hh]
  cases hs : (a.closeTo line.indent).scope with
  | nil => exact Assembly.notes_complain _ _
  | cons frame outer => exact (Notes.add_none _).symm

private theorem notes_arm (h : Traces a o) (condition : String) (last : Bool) :
    ((a.closeDeeper line.indent).withScope ((a.closeDeeper line.indent).scope.modify
        (Frame.startArm line.indent condition last)) (Assembly.strayArm line)).program.notes =
      if (o.awaiting? line.indent).isNone then
        a.program.notes.add none none (some ⟨line.number, elseWithoutIf⟩)
      else a.program.notes.add none none none := by
  have hn : (a.closeDeeper line.indent).program.notes = a.program.notes :=
    Assembly.notes_closeBy (fun n ↦ line.indent < n)
  rcases h.startArm_cases line.indent condition last with ⟨hm, hwaiting⟩ |
    ⟨frame, next, rest, opening, outer, hscope, hf, hwaiting, -⟩
  · rw [hm, hwaiting, ← hn, ← Assembly.notes_complain]
    exact Assembly.notes_closeBy (fun n ↦ line.indent ≤ n)
  · rw [hscope, Scope.modify, hf, hwaiting, ← hn]
    exact (Notes.add_none _).symm

private theorem notes_openRoot (a : Assembly) (line : SourceLine) (header : Header) :
    (a.openRoot line header).program.notes = a.program.notes := by
  rw [Assembly.openRoot, Assembly.program_withScope]
  exact Assembly.notes_closeBy (fun _ ↦ true)

/-- A line notes the variable that it declares, wherever it stands, the component that it names
where it is accepted, and the complaint that its outline tells. -/
theorem notes_take (h : Traces a o) (line : SourceLine) :
    (a.take line).program.notes = a.program.notes.add line.declared?
      (if (o.verdict line).isNone then line.component? else none)
      ((o.verdict line).map (Diagnostic.mk line.number)) := by
  unfold Assembly.take
  cases hl : line.statement? with
  | none =>
    have hv : o.verdict line = some invalidSyntax := by rw [Outline.verdict, hl]
    have hd : line.declared? = none := by rw [SourceLine.declared?, hl]; rfl
    rw [show Statement.read line.text = none from hl, hv, hd]
    exact Assembly.notes_complain _ _
  | some statement =>
    have hclose : (a.closeTo line.indent).program.notes = a.program.notes :=
      Assembly.notes_closeBy (fun n ↦ line.indent ≤ n)
    rw [show Statement.read line.text = some statement from hl,
      SourceLine.declared?_of_statement hl, SourceLine.component?_of_statement hl,
      Outline.verdict_of_statement o hl]
    cases statement with
    | event component occurrence =>
      rw [← notes_openRoot a line (.event component occurrence)]
      exact Assembly.notes_mention component
    | procedure name parameters =>
      exact (notes_openRoot a line _).trans (Notes.add_none _).symm
    | declare name value =>
      refine (Assembly.notes_declare name value).trans ?_
      rw [Assembly.program_withScope, hclose]
      rfl
    | setProperty component property value =>
      refine (h.notes_perform _ _).trans ?_
      cases (o.close line.indent).openings.isEmpty <;> rfl
    | assign target value =>
      refine (h.notes_perform _ _).trans ?_
      cases (o.close line.indent).openings.isEmpty <;> rfl
    | callMethod component method arguments =>
      refine (h.notes_perform _ _).trans ?_
      cases (o.close line.indent).openings.isEmpty <;> rfl
    | callProcedure name arguments =>
      refine (h.notes_perform _ _).trans ?_
      cases (o.close line.indent).openings.isEmpty <;> rfl
    | branch condition =>
      refine (h.notes_openControl rfl).trans ?_
      cases (o.close line.indent).openings.isEmpty <;> rfl
    | loop condition =>
      refine (h.notes_openControl rfl).trans ?_
      cases (o.close line.indent).openings.isEmpty <;> rfl
    | forEach item list =>
      refine (h.notes_openControl rfl).trans ?_
      cases (o.close line.indent).openings.isEmpty <;> rfl
    | elseIf condition =>
      refine (h.notes_arm condition false).trans ?_
      cases (o.awaiting? line.indent).isNone <;> rfl
    | otherwise =>
      refine (h.notes_arm "" true).trans ?_
      cases (o.awaiting? line.indent).isNone <;> rfl
    | closing => exact hclose.trans (Notes.add_none _).symm

end Traces

end Blockwright.Script
