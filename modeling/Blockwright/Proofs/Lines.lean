import Blockwright.Script.Source

/-!
# Numbered lines

The lines of a script that say something are found by the numbers they carry: numbers increase
strictly, and a line with all lines before it is known from its place in the text.
-/

namespace Blockwright.Script

open Blockwright.Text

/-! ### Texts made of lines -/

/-- The text with some lines, each with a line feed behind it. -/
def textOf (lines : List (List Char)) : List Char := lines.flatMap (· ++ ['\n'])

/-- Cutting finds the first line feed. -/
theorem cutLine_append {line : List Char} (h : '\n' ∉ line) (rest : List Char) :
    cutLine (line ++ '\n' :: rest) = (line, some rest) := by
  induction line with
  | nil => rfl
  | cons c line ih =>
    rw [List.mem_cons, not_or] at h
    obtain ⟨hc, hline⟩ := h
    rw [List.cons_append, cutLine, ih hline]
    exact fun he ↦ hc he.symm

private theorem cutLine_of_notMem {line : List Char} (h : '\n' ∉ line) :
    cutLine line = (line, none) := by
  induction line with
  | nil => rfl
  | cons c line ih =>
    rw [List.mem_cons, not_or] at h
    obtain ⟨hc, hline⟩ := h
    rw [cutLine, ih hline]
    exact fun he ↦ hc he.symm

/-- The first line ends at the first line feed, without a carriage return before it. -/
theorem rawLines_cut {line : List Char} (hn : '\n' ∉ line) (rest : List Char) :
    rawLines (line ++ '\n' :: rest) = dropReturn line :: rawLines rest := by
  have hc := cutLine_append hn rest
  rw [rawLines]
  split
  · next found hf =>
    rw [hc] at hf ⊢
    cases hf
    rfl
  · next hf =>
    rw [hc] at hf
    cases hf

/-- A text without line feed is one line, or none if it is empty. -/
theorem rawLines_of_notMem {line : List Char} (hn : '\n' ∉ line) :
    rawLines line = if line.isEmpty then [] else [line] := by
  have hc := cutLine_of_notMem hn
  rw [rawLines]
  split
  · next found hf =>
    rw [hc] at hf
    cases hf
  · rfl

/-- A line without line feed, and without a carriage return at its end, is found as it is. -/
theorem rawLines_append {line : List Char} (hn : '\n' ∉ line) (hr : line.getLast? ≠ some '\r')
    (rest : List Char) : rawLines (line ++ '\n' :: rest) = line :: rawLines rest := by
  rw [rawLines_cut hn, dropReturn, if_neg hr]

/-- The lines of a text are those it was made of. -/
theorem rawLines_textOf {lines : List (List Char)}
    (h : ∀ line ∈ lines, '\n' ∉ line ∧ line.getLast? ≠ some '\r') :
    rawLines (textOf lines) = lines := by
  induction lines with
  | nil =>
    rw [textOf, rawLines]
    rfl
  | cons line lines ih =>
    obtain ⟨hn, hr⟩ := h line List.mem_cons_self
    have ht : textOf (line :: lines) = line ++ '\n' :: textOf lines := by
      rw [textOf, List.flatMap_cons, List.append_assoc]
      rfl
    rw [ht, rawLines_append hn hr, ih (fun other hm ↦ h other (List.mem_cons_of_mem _ hm))]

/-! ### Indentation -/

/-- Spaces move the column on. -/
theorem indentFrom_replicate_append (column width : Nat) (text : List Char) :
    indentFrom column (List.replicate width ' ' ++ text) = indentFrom (column + width) text := by
  induction width generalizing column with
  | zero => rfl
  | succ width ih =>
    rw [List.replicate_succ, List.cons_append, indentFrom, if_neg (by decide),
      if_pos (by decide), ih, Nat.add_assoc, Nat.add_comm 1]

/-! ### Lines that say something -/

/-- A raw line says something unless it is blank or a comment, and keeps its number. -/
theorem SourceLine.ofRaw_eq_some_iff {number : Nat} {raw : List Char} {line : SourceLine} :
    SourceLine.ofRaw number raw = some line ↔ isSilent (trim raw) = false ∧
      line = ⟨number, indentWidth raw, String.ofList (trim raw)⟩ := by
  unfold SourceLine.ofRaw
  dsimp only
  split
  · next h => simp [h]
  · next h =>
    rw [Option.some.injEq, eq_comm]
    exact ⟨fun he ↦ ⟨by simpa using h, he⟩, And.right⟩

/-- A trimmed line is silent when it is empty or starts with two slashes. -/
theorem isSilent_iff {text : List Char} : isSilent text ↔ text = [] ∨ ['/', '/'] <+: text := by
  unfold isSilent
  split
  · simp
  · simp
  · next hslashes =>
    refine ⟨fun h ↦ (by cases h), ?_⟩
    rintro (rfl | ⟨rest, rfl⟩)
    · contradiction
    · exact absurd rfl (hslashes rest)

/-- Lines that follow others are numbered from where those end. -/
theorem sourceLinesFrom_append (start : Nat) (raws others : List (List Char)) :
    sourceLinesFrom start (raws ++ others) =
      sourceLinesFrom start raws ++ sourceLinesFrom (start + raws.length) others := by
  induction raws generalizing start with
  | nil => rfl
  | cons raw raws ih =>
    rw [List.cons_append, sourceLinesFrom, sourceLinesFrom, ih, List.append_assoc,
      List.length_cons, Nat.add_assoc, Nat.add_comm 1]

/-- The same line further down. -/
def SourceLine.lowered (count : Nat) (line : SourceLine) : SourceLine :=
  { line with number := line.number + count }

/-- Raw lines further down make the same lines further down. -/
theorem sourceLinesFrom_add (count start : Nat) (raws : List (List Char)) :
    sourceLinesFrom (start + count) raws =
      (sourceLinesFrom start raws).map (SourceLine.lowered count) := by
  induction raws generalizing start with
  | nil => rfl
  | cons raw raws ih =>
    rw [sourceLinesFrom, sourceLinesFrom, List.map_append, ← ih, Nat.add_right_comm,
      SourceLine.ofRaw, SourceLine.ofRaw]
    cases isSilent (trim raw) <;> rfl

/-- No line has a smaller number than the first. -/
theorem le_number_of_mem {start : Nat} {raws : List (List Char)} {line : SourceLine}
    (h : line ∈ sourceLinesFrom start raws) : start ≤ line.number := by
  induction raws generalizing start with
  | nil => cases h
  | cons raw raws ih =>
    rw [sourceLinesFrom, List.mem_append, Option.mem_toList] at h
    rcases h with h | h
    · obtain ⟨-, rfl⟩ := SourceLine.ofRaw_eq_some_iff.mp h
      exact Nat.le_refl _
    · exact Nat.le_of_succ_le (ih h)

/-- The numbers of the lines increase strictly. -/
theorem pairwise_number (start : Nat) (raws : List (List Char)) :
    (sourceLinesFrom start raws).Pairwise (fun line other ↦ line.number < other.number) := by
  induction raws generalizing start with
  | nil => exact .nil
  | cons raw raws ih =>
    rw [sourceLinesFrom, List.pairwise_append]
    refine ⟨?_, ih _, ?_⟩
    · cases SourceLine.ofRaw start raw with
      | none => exact .nil
      | some line => exact List.pairwise_singleton _ _
    · intro line hm other ho
      obtain ⟨-, rfl⟩ := SourceLine.ofRaw_eq_some_iff.mp (Option.mem_toList.mp hm)
      exact le_number_of_mem ho

private theorem ofRaw_append_eq {number : Nat} {raw : List Char} {line : SourceLine}
    {rest before behind : List SourceLine}
    (h : (SourceLine.ofRaw number raw).toList ++ rest = before ++ line :: behind) :
    (before = [] ∧ SourceLine.ofRaw number raw = some line) ∨
      ∃ later, before = (SourceLine.ofRaw number raw).toList ++ later ∧
        rest = later ++ line :: behind := by
  cases hr : SourceLine.ofRaw number raw with
  | none =>
    rw [hr] at h
    exact .inr ⟨before, rfl, h⟩
  | some first =>
    rw [hr] at h
    cases before with
    | nil =>
      obtain ⟨rfl, -⟩ := List.cons.inj h
      exact .inl ⟨rfl, rfl⟩
    | cons other before =>
      obtain ⟨rfl, hrest⟩ := List.cons.inj h
      exact .inr ⟨before, rfl, hrest⟩

/-- The lines before a line are those of the raw lines before its own. -/
theorem exists_raw_of_eq {start : Nat} {raws : List (List Char)} {line : SourceLine}
    {before behind : List SourceLine} (h : sourceLinesFrom start raws = before ++ line :: behind) :
    ∃ n raw, raws[n]? = some raw ∧ SourceLine.ofRaw (start + n) raw = some line ∧
      before = sourceLinesFrom start (raws.take n) := by
  induction raws generalizing start before with
  | nil => simp [sourceLinesFrom] at h
  | cons raw raws ih =>
    rw [sourceLinesFrom] at h
    rcases ofRaw_append_eq h with ⟨rfl, hr⟩ | ⟨later, rfl, hrest⟩
    · exact ⟨0, raw, rfl, hr, rfl⟩
    · obtain ⟨n, found, hn, hf, rfl⟩ := ih hrest
      refine ⟨n + 1, found, hn, ?_, rfl⟩
      rw [← hf, Nat.add_right_comm, Nat.add_assoc]

/-- A raw line that says something makes a line behind those of the raw lines before it. -/
theorem exists_eq_of_raw {start n : Nat} {raws : List (List Char)} {raw : List Char}
    {line : SourceLine} (hn : raws[n]? = some raw)
    (hl : SourceLine.ofRaw (start + n) raw = some line) : ∃ behind,
      sourceLinesFrom start raws = sourceLinesFrom start (raws.take n) ++ line :: behind := by
  obtain ⟨hlt, rfl⟩ := List.getElem?_eq_some_iff.mp hn
  refine ⟨sourceLinesFrom (start + n + 1) (raws.drop (n + 1)), ?_⟩
  calc sourceLinesFrom start raws
    _ = sourceLinesFrom start (raws.take n ++ raws[n] :: raws.drop (n + 1)) := by simp
    _ = sourceLinesFrom start (raws.take n) ++
        sourceLinesFrom (start + n) (raws[n] :: raws.drop (n + 1)) := by
      rw [sourceLinesFrom_append, List.length_take_of_le (Nat.le_of_lt hlt)]
    _ = _ := by
      rw [sourceLinesFrom, hl]
      rfl

end Blockwright.Script
