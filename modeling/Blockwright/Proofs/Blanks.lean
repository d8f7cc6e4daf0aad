import Blockwright.Script.Cursor
import Blockwright.Script.Operand
import Mathlib.Data.List.TakeWhile

/-!
# Blanks around texts

A gap is one or more blanks. Trimming takes away the gaps at either end of a text, and a text that
neither starts nor ends with a blank is left as it is.
-/

namespace Blockwright.Script

open Blockwright.Text

/-- One or more blanks. -/
def IsGap (cs : List Char) : Prop := cs ≠ [] ∧ ∀ c ∈ cs, isBlank c

/-- A space is a gap. -/
theorem isGap_space : IsGap [' '] := ⟨by simp, List.forall_mem_singleton.mpr rfl⟩

/-- Whether a text starts with a blank. -/
def startsBlank : List Char → Bool
  | [] => false
  | c :: _ => isBlank c

/-! ### The start of a text -/

/-- Blanks in front of a text that starts with none are what trimming takes away. -/
theorem trimStart_append {gap rest : List Char} (hg : ∀ c ∈ gap, isBlank c)
    (hr : startsBlank rest = false) : trimStart (gap ++ rest) = rest := by
  rw [trimStart, List.dropWhile_append_of_pos hg]
  cases rest with
  | nil => rfl
  | cons c cs => rw [List.dropWhile_cons, if_neg (by simpa [startsBlank] using hr)]

private theorem trimStart_of_solid {cs : List Char} (h : startsBlank cs = false) :
    trimStart cs = cs :=
  @trimStart_append [] cs (by simp) h

/-- What is left after trimming starts with no blank. -/
theorem startsBlank_trimStart (cs : List Char) : startsBlank (trimStart cs) = false := by
  induction cs with
  | nil => rfl
  | cons c cs ih =>
    rw [trimStart, List.dropWhile_cons]
    split
    · exact ih
    · next h => simpa [startsBlank] using h

/-- A text is the blanks it starts with and what is left of it without them. -/
theorem exists_trimStart (cs : List Char) :
    ∃ gap, (∀ c ∈ gap, isBlank c) ∧ cs = gap ++ trimStart cs :=
  ⟨cs.takeWhile isBlank, fun _ hc ↦ List.mem_takeWhile_imp hc,
    (List.takeWhile_append_dropWhile).symm⟩

/-! ### The end of a text -/

private theorem startsBlank_reverse (cs : List Char) : startsBlank cs.reverse = endsBlank cs := by
  rw [endsBlank, ← List.head?_reverse]
  cases cs.reverse <;> rfl

private theorem trimEnd_eq (cs : List Char) : trimEnd cs = (trimStart cs.reverse).reverse := rfl

/-- A text that ends with no blank is not changed at its end. -/
theorem trimEnd_of_solid {cs : List Char} (h : endsBlank cs = false) : trimEnd cs = cs := by
  rw [trimEnd_eq, trimStart_of_solid (by rwa [startsBlank_reverse]), List.reverse_reverse]

/-- A text that neither starts nor ends with a blank is not changed by trimming. -/
theorem trim_of_solid {cs : List Char} (hs : startsBlank cs = false) (he : endsBlank cs = false) :
    trim cs = cs := by
  rw [trim, trimStart_of_solid hs, trimEnd_of_solid he]

/-- Blanks in front of a text make no difference to trimming. -/
theorem trim_append {gap rest : List Char} (hg : ∀ c ∈ gap, isBlank c)
    (hr : startsBlank rest = false) : trim (gap ++ rest) = trim rest := by
  rw [trim, trimStart_append hg hr, trim, trimStart_of_solid hr]

/-- Trimming at the start makes no difference to trimming. -/
theorem trim_trimStart (cs : List Char) : trim (trimStart cs) = trim cs := by
  rw [trim, trimStart_of_solid (startsBlank_trimStart cs), trim]

/-- Blanks behind a text that ends with none are what trimming takes away. -/
theorem trim_append_gap {cs gap : List Char} (hs : startsBlank cs = false)
    (he : endsBlank cs = false) (hne : cs ≠ []) (hg : ∀ c ∈ gap, isBlank c) :
    trim (cs ++ gap) = cs := by
  have hstart : startsBlank (cs ++ gap) = false := by
    cases cs with
    | nil => exact absurd rfl hne
    | cons c cs => exact hs
  rw [trim, trimStart_of_solid hstart, trimEnd_eq, List.reverse_append,
    trimStart_append (fun c hc ↦ hg c (List.mem_reverse.mp hc)) (by rwa [startsBlank_reverse]),
    List.reverse_reverse]

/-- The last character of two texts behind each other is that of the second. -/
theorem endsBlank_append (first : List Char) {second : List Char} (h : second ≠ []) :
    endsBlank (first ++ second) = endsBlank second := by
  rw [endsBlank, endsBlank, List.getLast?_append, List.getLast?_eq_some_getLast h]
  rfl

end Blockwright.Script
