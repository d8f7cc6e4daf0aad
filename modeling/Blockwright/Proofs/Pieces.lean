import Blockwright.Proofs.Blanks
import Blockwright.Proofs.Lines

/-!
# Lines as the pieces between line feeds

A text falls into pieces at its line feeds, one more than there are line feeds. The lines that say
something are those of the pieces: the carriage return of a line ending is one more blank behind
the text of its line, and the empty piece behind a last line feed says nothing. Pieces are easier
to work with than lines because those of two texts with a line feed between them are the pieces of
the one and then the pieces of the other.
-/

namespace Blockwright.Script

open Blockwright.Text

/-! ### Blanks behind a line -/

private theorem exists_not_isBlank {line : List Char} (h : trim line ≠ []) :
    ∃ c ∈ line, isBlank c = false := by
  by_contra hall
  apply h
  have hblank : ∀ c ∈ line, isBlank c := by
    intro c hc
    by_contra hb
    exact hall ⟨c, hc, by simpa using hb⟩
  rw [trim, trimStart, List.dropWhile_eq_nil_iff.mpr hblank]
  rfl

/-- Blanks behind a text make no difference to trimming. -/
theorem trim_append_blanks (line : List Char) {gap : List Char} (hg : ∀ c ∈ gap, isBlank c) :
    trim (line ++ gap) = trim line := by
  have hend (cs : List Char) : trimEnd (cs ++ gap) = trimEnd cs := by
    rw [trimEnd, List.reverse_append, List.dropWhile_append_of_pos (by simpa using hg), trimEnd]
  rw [trim, trim, trimStart, List.dropWhile_append, trimStart]
  split
  · next he =>
    rw [List.isEmpty_iff.mp he, List.dropWhile_eq_nil_iff.mpr hg]
  · exact hend _

private theorem indentFrom_append {line : List Char} (h : ∃ c ∈ line, isBlank c = false)
    (column : Nat) (rest : List Char) :
    indentFrom column (line ++ rest) = indentFrom column line := by
  induction line generalizing column with
  | nil => simp at h
  | cons c line ih =>
    rw [List.cons_append, indentFrom, indentFrom]
    by_cases hc : isBlank c
    · have hrest : ∃ c ∈ line, isBlank c = false := by simpa [hc] using h
      rw [ih hrest, ih hrest]
    · have ht : c ≠ '\t' := by
        rintro rfl
        exact hc rfl
      rw [if_neg ht, if_neg hc, if_neg ht, if_neg hc]

/-- What stands behind a line that says something makes no difference to its indentation. -/
theorem indentWidth_append {line : List Char} (h : isSilent (trim line) = false)
    (rest : List Char) : indentWidth (line ++ rest) = indentWidth line := by
  have hne : trim line ≠ [] := by
    intro he
    rw [he] at h
    cases h
  exact indentFrom_append (exists_not_isBlank hne) 0 rest

/-- Raw lines with the same trimmed text, and the same indentation if they say something, make
the same line. -/
theorem SourceLine.ofRaw_congr {raw other : List Char} (ht : trim raw = trim other)
    (hi : isSilent (trim raw) = false → indentWidth raw = indentWidth other) (number : Nat) :
    SourceLine.ofRaw number raw = SourceLine.ofRaw number other := by
  ext line
  rw [SourceLine.ofRaw_eq_some_iff, SourceLine.ofRaw_eq_some_iff, ← ht]
  refine and_congr_right fun hs ↦ ?_
  rw [hi hs]

/-- Blanks behind a raw line make no difference. -/
theorem SourceLine.ofRaw_append_blanks (number : Nat) (line : List Char) {gap : List Char}
    (hg : ∀ c ∈ gap, isBlank c) :
    SourceLine.ofRaw number (line ++ gap) = SourceLine.ofRaw number line := by
  have ht := trim_append_blanks line hg
  exact SourceLine.ofRaw_congr ht (fun hs ↦ indentWidth_append (ht ▸ hs) gap) number

/-- A carriage return behind a raw line makes no difference. -/
theorem SourceLine.ofRaw_append_return (number : Nat) (line : List Char) :
    SourceLine.ofRaw number (line ++ ['\r']) = SourceLine.ofRaw number line :=
  SourceLine.ofRaw_append_blanks number line (List.forall_mem_singleton.mpr rfl)

/-- Leaving out a carriage return makes no difference. -/
theorem SourceLine.ofRaw_dropReturn (number : Nat) (line : List Char) :
    SourceLine.ofRaw number (dropReturn line) = SourceLine.ofRaw number line := by
  unfold dropReturn
  split
  · next h =>
    obtain ⟨start, rfl⟩ := List.getLast?_eq_some_iff.mp h
    rw [List.dropLast_concat, SourceLine.ofRaw_append_return]
  · rfl

/-! ### Pieces -/

/-- The pieces of a text between its line feeds. -/
def pieces (cs : List Char) : List (List Char) := cs.splitOn '\n'

private theorem pieces_of_notMem {line : List Char} (h : '\n' ∉ line) : pieces line = [line] :=
  List.splitOn_eq_singleton h

private theorem pieces_append (cs rest : List Char) :
    pieces (cs ++ '\n' :: rest) = pieces cs ++ pieces rest :=
  List.splitOn_append_cons_self cs rest

/-- A text has pieces. -/
theorem pieces_ne_nil (cs : List Char) : pieces cs ≠ [] := List.splitOn_ne_nil _ cs

/-- The pieces of a text joined by line feeds are those that were joined. -/
theorem pieces_intercalate {lines : List (List Char)} (h : ∀ line ∈ lines, '\n' ∉ line)
    (hne : lines ≠ []) : pieces (['\n'].intercalate lines) = lines :=
  List.splitOn_intercalate '\n' h hne

/-- Cutting takes a text apart at its first line feed, if it has one. -/
theorem cutLine_spec (cs : List Char) :
    '\n' ∉ (cutLine cs).1 ∧ cs = (cutLine cs).1 ++ (cutLine cs).2.elim [] ('\n' :: ·) := by
  induction cs using cutLine.induct with
  | case1 => simp [cutLine]
  | case2 cs => simp [cutLine]
  | case3 c cs hc ih =>
    rw [cutLine.eq_3 c cs hc]
    refine ⟨?_, congrArg (c :: ·) ih.2⟩
    rw [List.mem_cons, not_or]
    exact ⟨fun he ↦ hc he.symm, ih.1⟩

/-- A text is one line, or a line with a line feed and a text behind it. -/
theorem text_induction {motive : List Char → Prop} (last : ∀ line, '\n' ∉ line → motive line)
    (step : ∀ line rest, '\n' ∉ line → motive rest → motive (line ++ '\n' :: rest))
    (cs : List Char) : motive cs := by
  obtain ⟨hn, hcs⟩ := cutLine_spec cs
  cases hrest : (cutLine cs).2 with
  | none =>
    rw [hrest, Option.elim_none, List.append_nil] at hcs
    rw [hcs]
    exact last _ hn
  | some rest =>
    rw [hrest] at hcs
    rw [hcs]
    exact step _ rest hn (text_induction last step rest)
termination_by cs.length
decreasing_by exact length_lt_of_cutLine hrest

/-- No piece holds a line feed. -/
theorem notMem_of_mem_pieces {cs line : List Char} (h : line ∈ pieces cs) : '\n' ∉ line := by
  induction cs using text_induction with
  | last whole hn =>
    rw [pieces_of_notMem hn, List.mem_singleton] at h
    rwa [h]
  | step first rest hn ih =>
    rw [pieces_append, pieces_of_notMem hn, List.mem_append, List.mem_singleton] at h
    rcases h with rfl | h
    · exact hn
    · exact ih h

/-- There is one piece more than there are line feeds. -/
theorem length_pieces (cs : List Char) : (pieces cs).length = cs.count '\n' + 1 := by
  induction cs using text_induction with
  | last line hn => rw [pieces_of_notMem hn, List.count_eq_zero.mpr hn]; rfl
  | step line rest hn ih =>
    rw [pieces_append, pieces_of_notMem hn, List.length_append, ih, List.count_append,
      List.count_eq_zero.mpr hn, List.count_cons_self, List.length_singleton]
    omega

/-- Behind a first line feed the pieces are numbered on. -/
theorem sourceLinesFrom_pieces_append {line : List Char} (hn : '\n' ∉ line) (start : Nat)
    (rest : List Char) : sourceLinesFrom start (pieces (line ++ '\n' :: rest)) =
      (SourceLine.ofRaw start line).toList ++ sourceLinesFrom (start + 1) (pieces rest) := by
  rw [pieces_append, pieces_of_notMem hn, List.singleton_append, sourceLinesFrom]

private theorem sourceLinesFrom_rawLines (start : Nat) (cs : List Char) :
    sourceLinesFrom start (rawLines cs) = sourceLinesFrom start (pieces cs) := by
  induction cs using text_induction generalizing start with
  | last line hn =>
    rw [rawLines_of_notMem hn, pieces_of_notMem hn]
    split
    · next he =>
      rw [List.isEmpty_iff.mp he]
      rfl
    · rfl
  | step line rest hn ih =>
    rw [rawLines_cut hn, sourceLinesFrom, SourceLine.ofRaw_dropReturn, ih,
      sourceLinesFrom_pieces_append hn]

/-- The lines of a script are those of its pieces. -/
theorem sourceLines_eq (script : String) :
    sourceLines script = sourceLinesFrom 1 (pieces script.toList) :=
  sourceLinesFrom_rawLines 1 script.toList

/-- A script behind another and a line feed has its lines further down by one more than the first
has line feeds. -/
theorem sourceLines_append (script other : String) :
    sourceLines (script ++ "\n" ++ other) = sourceLines script ++
      (sourceLines other).map (SourceLine.lowered (1 + script.toList.count '\n')) := by
  have htext : (script ++ "\n" ++ other).toList = script.toList ++ '\n' :: other.toList := by
    simp
  rw [sourceLines_eq, sourceLines_eq, sourceLines_eq, htext, pieces_append,
    sourceLinesFrom_append, length_pieces, ← sourceLinesFrom_add, Nat.add_comm _ 1]

end Blockwright.Script
