import Blockwright.Proofs.Lowering
import Blockwright.Script.Assembly

/-!
# Places on the canvas

The blocks that stand on their own are placed in one column: declarations, then procedures, then
handlers. Each stands lower than the one before by a distance that depends on the one before alone,
so the distances from the upper edge have a closed form. They are words of 32 bits. The placing that
gives up when a distance does not fit gives up exactly if the place behind the last block does not
fit, and otherwise it is the placing that does not look.
-/

namespace Blockwright

open Script Markup Element

namespace PlacedBlock

/-! ### One column -/

/-- Places blocks one below the other, unless the place behind one of them does not fit in a word;
also where the next one goes. -/
def columnWithin? (step : UInt32) :
    UInt32 → List TopBlock → Option (List PlacedBlock × UInt32)
  | top, [] => some ([], top)
  | top, block :: blocks =>
    if top.toNat + step.toNat < UInt32.size then
      (columnWithin? step (top + step) blocks).map
        (fun rest ↦ (⟨top, block⟩ :: rest.1, rest.2))
    else none

variable {step top : UInt32} {blocks : List TopBlock}

private theorem toNat_add_of_lt (h : top.toNat + step.toNat < UInt32.size) :
    (top + step).toNat = top.toNat + step.toNat := by
  rw [UInt32.toNat_add]
  exact Nat.mod_eq_of_lt h

private theorem first_step_lt {n : Nat} (h : top.toNat + step.toNat * (n + 1) < UInt32.size) :
    top.toNat + step.toNat < UInt32.size := by
  rw [Nat.mul_succ] at h
  omega

private theorem last_step_eq {n : Nat} (h : top.toNat + step.toNat < UInt32.size) :
    (top + step).toNat + step.toNat * n = top.toNat + step.toNat * (n + 1) := by
  rw [toNat_add_of_lt h, Nat.mul_succ]
  omega

/-- A column fits exactly if the place behind its last block does, and then it is the column that is
placed without looking. -/
theorem columnWithin?_eq_some_iff {placed : List PlacedBlock × UInt32} :
    columnWithin? step top blocks = some placed ↔
      top.toNat + step.toNat * blocks.length < UInt32.size ∧ placed = column step top blocks := by
  induction blocks generalizing top placed with
  | nil =>
    have hfits : top.toNat < UInt32.size := top.toNat_lt
    simp [columnWithin?, column, hfits, eq_comm]
  | cons block blocks ih =>
    rw [columnWithin?, List.length_cons]
    by_cases hfirst : top.toNat + step.toNat < UInt32.size
    · rw [if_pos hfirst, Option.map_eq_some_iff]
      simp only [ih, last_step_eq hfirst]
      constructor
      · rintro ⟨rest, ⟨hfits, rfl⟩, rfl⟩
        exact ⟨hfits, rfl⟩
      · rintro ⟨hfits, rfl⟩
        exact ⟨_, ⟨hfits, rfl⟩, rfl⟩
    · rw [if_neg hfirst]
      constructor
      · intro h
        cases h
      · rintro ⟨hfits, -⟩
        exact absurd (first_step_lt hfits) hfirst

/-- The next block goes below a column that fits, one step for each of its blocks. -/
theorem toNat_next_column (h : top.toNat + step.toNat * blocks.length < UInt32.size) :
    (column step top blocks).2.toNat = top.toNat + step.toNat * blocks.length := by
  induction blocks generalizing top with
  | nil => rfl
  | cons block blocks ih =>
    have hstep := last_step_eq (n := blocks.length) (first_step_lt h)
    rw [column, List.length_cons, ← hstep]
    exact ih (hstep ▸ h)

/-- The blocks of a column that fits stand one step apart. -/
theorem toNat_tops_column (h : top.toNat + step.toNat * blocks.length < UInt32.size) :
    (column step top blocks).1.map (fun placed ↦ placed.top.toNat) =
      (List.range blocks.length).map (fun i ↦ top.toNat + step.toNat * i) := by
  induction blocks generalizing top with
  | nil => rfl
  | cons block blocks ih =>
    have hfirst := first_step_lt h
    rw [column, List.map_cons, ih (last_step_eq hfirst ▸ h), List.length_cons,
      List.range_succ_eq_map, List.map_cons, List.map_map]
    congr 1
    apply List.map_congr_left
    intro i _
    exact last_step_eq hfirst

end PlacedBlock

/-! ### The three columns of a program -/

namespace Script.Program

variable (p : Program)

/-- The distances of a program's blocks from the upper edge, declarations first, then procedures,
then handlers. -/
def tops : List Nat :=
  (List.range p.globals.length).map (fun i ↦ 20 + 100 * i) ++
    (List.range p.procedures.length).map (fun j ↦ 20 + 100 * p.globals.length + 150 * j) ++
    (List.range p.events.length).map
      (fun k ↦ 20 + 100 * p.globals.length + 150 * p.procedures.length + 150 * k)

/-- The distance of the place behind the last block from the upper edge. -/
def bottom : Nat := 20 + 100 * p.globals.length + 150 * (p.procedures.length + p.events.length)

/-- Every block of a program stands lower than the one before it. -/
theorem pairwise_tops : p.tops.Pairwise (· < ·) := by
  have hcolumn (start : Nat) {step : Nat} (hs : 0 < step) (n : Nat) :
      ((List.range n).map (fun i ↦ start + step * i)).Pairwise (· < ·) := by
    rw [List.pairwise_map]
    apply List.pairwise_lt_range.imp
    intro i j hij
    exact Nat.add_lt_add_left (Nat.mul_lt_mul_of_pos_left hij hs) start
  rw [tops, List.pairwise_append, List.pairwise_append]
  refine ⟨⟨hcolumn 20 (by decide) _, hcolumn _ (by decide) _, ?_⟩, hcolumn _ (by decide) _, ?_⟩
  · simp only [List.mem_map, List.mem_range]
    rintro _ ⟨i, hi, rfl⟩ _ ⟨j, -, rfl⟩
    omega
  · simp only [List.mem_append, List.mem_map, List.mem_range]
    rintro _ (⟨i, hi, rfl⟩ | ⟨j, hj, rfl⟩) _ ⟨k, -, rfl⟩
    · omega
    · omega

end Script.Program

namespace Catalog

open PlacedBlock

variable (c : Catalog) (p : Program)

/-- The declarations of a program in their places, and where the next block goes. -/
def declarationColumn : List PlacedBlock × UInt32 :=
  column declarationStep firstTop (p.globals.map c.declarationBlock)

/-- The procedures of a program in their places, and where the next block goes. -/
def procedureColumn : List PlacedBlock × UInt32 :=
  column blockStep (c.declarationColumn p).2
    (p.procedures.map (fun procedure ↦ (c.procedureBlock p procedure).2))

/-- The handlers of a program in their places, and where the next block would go. -/
def handlerColumn : List PlacedBlock × UInt32 :=
  column blockStep (c.procedureColumn p).2
    (p.events.map (fun event ↦ (c.handlerBlock p event).2))

/-- The canvas of a program is its three columns. -/
theorem canvas_columns : (c.canvas p).2 =
    (c.declarationColumn p).1 ++ (c.procedureColumn p).1 ++ (c.handlerColumn p).1 := by
  unfold canvas
  dsimp only
  rw [List.map_map, List.map_map]
  rfl

/-- The blocks of a program in their places, unless a distance does not fit in a word. -/
def canvasWithin? : Option (List PlacedBlock) := do
  let first ← columnWithin? declarationStep firstTop (p.globals.map c.declarationBlock)
  let second ← columnWithin? blockStep first.2
    (p.procedures.map (fun procedure ↦ (c.procedureBlock p procedure).2))
  let third ← columnWithin? blockStep second.2
    (p.events.map (fun event ↦ (c.handlerBlock p event).2))
  return first.1 ++ second.1 ++ third.1

section fits

variable {c p} (h : p.bottom < UInt32.size)

include h

private theorem declarationColumn_fits : firstTop.toNat +
    declarationStep.toNat * (p.globals.map c.declarationBlock).length < UInt32.size := by
  rw [List.length_map]
  change 20 + 100 * p.globals.length < _
  unfold Program.bottom at h
  omega

private theorem toNat_next_declarationColumn :
    (c.declarationColumn p).2.toNat = 20 + 100 * p.globals.length := by
  rw [declarationColumn, toNat_next_column (declarationColumn_fits h), List.length_map]
  rfl

private theorem procedureColumn_fits : (c.declarationColumn p).2.toNat + blockStep.toNat *
    (p.procedures.map (fun procedure ↦ (c.procedureBlock p procedure).2)).length <
      UInt32.size := by
  rw [List.length_map, toNat_next_declarationColumn h]
  change _ + 150 * _ < _
  unfold Program.bottom at h
  omega

private theorem toNat_next_procedureColumn : (c.procedureColumn p).2.toNat =
    20 + 100 * p.globals.length + 150 * p.procedures.length := by
  rw [procedureColumn, toNat_next_column (procedureColumn_fits h), List.length_map,
    toNat_next_declarationColumn h]
  rfl

private theorem handlerColumn_fits : (c.procedureColumn p).2.toNat + blockStep.toNat *
    (p.events.map (fun event ↦ (c.handlerBlock p event).2)).length < UInt32.size := by
  rw [List.length_map, toNat_next_procedureColumn h]
  change _ + 150 * _ < _
  unfold Program.bottom at h
  omega

/-- The blocks of a program stand at the distances of the closed form. -/
theorem toNat_tops_canvas : (c.canvas p).2.map (fun placed ↦ placed.top.toNat) = p.tops := by
  have hfirst := toNat_tops_column (declarationColumn_fits (c := c) h)
  have hsecond := toNat_tops_column (procedureColumn_fits (c := c) h)
  have hthird := toNat_tops_column (handlerColumn_fits (c := c) h)
  rw [List.length_map] at hfirst hsecond hthird
  rw [toNat_next_declarationColumn h] at hsecond
  rw [toNat_next_procedureColumn h] at hthird
  rw [canvas_columns, List.map_append, List.map_append]
  exact congrArg₂ _ (congrArg₂ _ hfirst hsecond) hthird

end fits

/-- No distance overflows exactly if the place behind the last block fits in a word, and then the
blocks are placed as they are without looking. -/
theorem canvasWithin?_eq_some_iff {placed : List PlacedBlock} :
    c.canvasWithin? p = some placed ↔ p.bottom < UInt32.size ∧ placed = (c.canvas p).2 := by
  unfold canvasWithin?
  simp only [Option.bind_eq_bind, Option.bind_eq_some_iff, columnWithin?_eq_some_iff]
  constructor
  · rintro ⟨_, ⟨hfirst, rfl⟩, _, ⟨hsecond, rfl⟩, _, ⟨hthird, rfl⟩, hplaced⟩
    refine ⟨?_, (Option.some.inj hplaced).symm.trans (c.canvas_columns p).symm⟩
    rw [toNat_next_column hsecond, toNat_next_column hfirst, List.length_map, List.length_map,
      List.length_map] at hthird
    change 20 + 100 * _ + 150 * _ + 150 * _ < _ at hthird
    unfold Program.bottom
    omega
  · rintro ⟨h, rfl⟩
    exact ⟨_, ⟨declarationColumn_fits h, rfl⟩, _, ⟨procedureColumn_fits h, rfl⟩, _,
      ⟨handlerColumn_fits h, rfl⟩, congrArg some (c.canvas_columns p).symm⟩

/-- The element of a declaration shows its name and its value. -/
structure Declares (global : Variable) (e : Element) : Prop where
  blockType?_eq : e.blockType? = some "global_declaration"
  title?_eq : e.title? "NAME" = some global.name
  input?_eq : e.input? "VALUE" = some (Literal.ofText c.config global.value).element

/-- The element of a declaration, wherever it is placed. -/
theorem declares_declarationBlock (global : Variable) (top : UInt32) :
    c.Declares global (PlacedBlock.element ⟨top, c.declarationBlock global⟩) where
  blockType?_eq := rfl
  title?_eq := rfl
  input?_eq := rfl

/-! ### The document -/

/-- As long as the place behind the last block fits in a word of 32 bits, the document of a program
holds the blocks of its declarations, procedures and handlers and no others, each kind in order.
They stand 20 from the left edge. Their distances from the upper edge start at 20 and grow by 100
below a declaration and by 150 below any other block, so every block stands lower than the one
before it, and no distance overflows. -/
theorem canvas_in_order (c : Catalog) (p : Program) (h : 20 + 100 * p.globals.length +
      150 * (p.procedures.length + p.events.length) < UInt32.size) :
    let document := blocksDocument (c.canvas p).2
    (∃ declarations definitions handlers,
      document.children = declarations ++ definitions ++ handlers ∧
      List.Forall₂ c.Declares p.globals declarations ∧
      List.Forall₂ p.Defines p.procedures definitions ∧
      List.Forall₂ p.Handles p.events handlers) ∧
    (∀ e ∈ document.children, e.attribute? "x" = some "20") ∧
    document.children.map (attribute? "y") = p.tops.map (fun top ↦ some (toString top)) ∧
    p.tops.Pairwise (· < ·) ∧ c.canvasWithin? p = some (c.canvas p).2 := by
  intro document
  have hchildren : document.children = (c.canvas p).2.map PlacedBlock.element := rfl
  refine ⟨?_, ?_, ?_, p.pairwise_tops, (c.canvasWithin?_eq_some_iff p).mpr ⟨h, rfl⟩⟩
  · rw [hchildren, canvas_columns, List.map_append, List.map_append]
    exact ⟨_, _, _, rfl, forall₂_column _ c.declares_declarationBlock _ _ _,
      forall₂_column _ (c.defines_procedureBlock p) _ _ _,
      forall₂_column _ (c.handles_handlerBlock p) _ _ _⟩
  · rw [hchildren, List.forall_mem_map]
    intro placed _
    exact congrArg some (by decide)
  · rw [hchildren, ← toNat_tops_canvas (c := c) h, List.map_map, List.map_map]
    rfl

/-- Two declarations, a procedure and a handler. -/
theorem canvas_in_order_mixed :
    let p := Program.ofScript
      "Define a as 1\nDefine b as 2\nDefine P\n    Set a to 2\nOn Button1.Click do\n    Call P()\n"
    let document := blocksDocument ((Catalog.ofExtensions .builtIn []).canvas p).2
    20 + 100 * p.globals.length + 150 * (p.procedures.length + p.events.length) < UInt32.size ∧
      document.children.map blockType? = [some "global_declaration", some "global_declaration",
        some "procedures_defnoreturn", some "component_event"] ∧
      document.children.map (attribute? "y") = [some "20", some "120", some "220", some "370"] := by
  intro p document
  obtain ⟨h, hkinds, heights⟩ : 20 + 100 * p.globals.length +
      150 * (p.procedures.length + p.events.length) < UInt32.size ∧
      document.children.map blockType? = [some "global_declaration", some "global_declaration",
        some "procedures_defnoreturn", some "component_event"] ∧
      p.tops = [20, 120, 220, 370] := by decide +kernel
  obtain ⟨-, -, htops, -⟩ := canvas_in_order (Catalog.ofExtensions .builtIn []) p h
  refine ⟨h, hkinds, htops.trans ?_⟩
  rw [heights]
  rfl

end Catalog

end Blockwright
