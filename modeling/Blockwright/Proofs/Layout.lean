import Blockwright.Proofs.Likeness
import Blockwright.Proofs.Phrases
import Blockwright.Proofs.Pieces

/-!
# Layout that makes no difference

Of the blanks in front of a line only the order of indentations counts, and blanks behind a line
count for nothing. So a text may be indented anew by any map that keeps the order, the tabs in
front of its lines may be replaced by spaces, blanks may be added behind its lines, and its line
endings may be changed: it makes the same program, with the same complaints.
-/

namespace Blockwright.Script

open Blockwright.Text

/-- Two texts have the same lines up to the blanks around them, and the lines that say something
are indented in the same order. -/
structure SameOrder (lines others : List (List Char)) : Prop where
  trim_eq : lines.map trim = others.map trim
  lt_iff : ∀ p ∈ lines.zip others, ∀ q ∈ lines.zip others,
    isSilent (trim p.1) = false → isSilent (trim q.1) = false →
      (indentWidth p.1 < indentWidth q.1 ↔ indentWidth p.2 < indentWidth q.2)

namespace SameOrder

variable {lines others : List (List Char)}

/-- The likeness of two texts whose indentations are in the same order. -/
def likeness (h : SameOrder lines others) : Likeness where
  indents m n := ∃ p ∈ lines.zip others, isSilent (trim p.1) = false ∧
    indentWidth p.1 = m ∧ indentWidth p.2 = n
  numbers := Eq
  programs := Eq
  lt_iff := by
    rintro _ _ _ _ ⟨p, hp, hsp, rfl, rfl⟩ ⟨q, hq, hsq, rfl, rfl⟩
    exact h.lt_iff p hp q hq hsp hsq
  store root hp := by rw [hp]
  mention component hp := by rw [hp]
  declare declared hp := by rw [hp]
  complain message hn hp := by rw [hn, hp]

private theorem forall₂_lines (h : SameOrder lines others) (start : Nat) :
    List.Forall₂ h.likeness.Lines (sourceLinesFrom start lines) (sourceLinesFrom start others) := by
  have htrim : List.Forall₂ (fun line other ↦ trim line = trim other) lines others := by
    rw [← List.forall₂_map_right_iff, ← List.forall₂_map_left_iff, List.forall₂_eq_eq_eq]
    exact h.trim_eq
  refine h.likeness.forall₂_sourceLinesFrom ?_ (fun _ ↦ rfl)
  rw [List.forall₂_iff_zip]
  refine ⟨htrim.length_eq, fun {line other} hm ↦ ⟨List.forall₂_zip htrim hm, fun hs ↦ ?_⟩⟩
  exact ⟨(line, other), hm, hs, rfl, rfl⟩

/-- The order of indentations is all that counts of them. -/
theorem foldl_take (h : SameOrder lines others) (start : Nat) :
    ((sourceLinesFrom start lines).foldl Assembly.take Assembly.empty).finish =
      ((sourceLinesFrom start others).foldl Assembly.take Assembly.empty).finish := by
  have hempty : Assembly.Alike h.likeness Assembly.empty Assembly.empty := ⟨rfl, .nil⟩
  exact (hempty.foldl_take (h.forall₂_lines start)).finish

end SameOrder

/-! ### Texts with changed lines -/

/-- A script with every line changed by its place. -/
def relined (change : Nat → List Char → List Char) (script : String) : String :=
  String.ofList (['\n'].intercalate ((pieces script.toList).mapIdx change))

section relined

variable {change : Nat → List Char → List Char} {script : String}

private theorem pieces_relined (h : ∀ i line, '\n' ∉ line → '\n' ∉ change i line) :
    pieces (relined change script).toList = (pieces script.toList).mapIdx change := by
  rw [relined, String.toList_ofList]
  apply pieces_intercalate
  · intro line hm
    obtain ⟨i, hi, rfl⟩ := List.mem_mapIdx.mp hm
    exact h i _ (notMem_of_mem_pieces (List.getElem_mem hi))
  · intro he
    exact pieces_ne_nil _ (List.mapIdx_eq_nil_iff.mp he)

private theorem mem_zip_mapIdx {lines : List (List Char)} {p : List Char × List Char}
    (h : p ∈ lines.zip (lines.mapIdx change)) : ∃ i, p.2 = change i p.1 := by
  obtain ⟨i, hi, rfl⟩ := List.mem_iff_getElem.mp h
  exact ⟨i, by simp⟩

private theorem Program.ofScript_relined (hn : ∀ i line, '\n' ∉ line → '\n' ∉ change i line)
    (ht : ∀ i line, trim (change i line) = trim line)
    (hi : ∀ i line j other, isSilent (trim line) = false → isSilent (trim other) = false →
      (indentWidth line < indentWidth other ↔
        indentWidth (change i line) < indentWidth (change j other))) :
    Program.ofScript (relined change script) = Program.ofScript script := by
  have hsame : SameOrder (pieces script.toList) ((pieces script.toList).mapIdx change) := by
    constructor
    · apply List.ext_getElem?
      intro i
      simp only [List.getElem?_map, List.getElem?_mapIdx, Option.map_map]
      congr 1
      funext line
      exact (ht i line).symm
    · intro p hp q hq hsp hsq
      obtain ⟨i, hp⟩ := mem_zip_mapIdx hp
      obtain ⟨j, hq⟩ := mem_zip_mapIdx hq
      rw [hp, hq]
      exact hi i p.1 j q.1 hsp hsq
  rw [Program.ofScript, Program.ofScript, sourceLines_eq, sourceLines_eq, pieces_relined hn]
  exact (hsame.foldl_take 1).symm

end relined

/-! ### Blanks in front of lines -/

/-- A line with its indentation mapped, and made of spaces. -/
def reindented (f : Nat → Nat) (line : List Char) : List Char :=
  List.replicate (f (indentWidth line)) ' ' ++ trimStart line

private theorem trim_reindented (f : Nat → Nat) (line : List Char) :
    trim (reindented f line) = trim line := by
  have hspaces : ∀ c ∈ List.replicate (f (indentWidth line)) ' ', isBlank c := by
    intro c hc
    rw [List.eq_of_mem_replicate hc]
    rfl
  rw [reindented, trim_append hspaces (startsBlank_trimStart line), trim_trimStart]

private theorem indentWidth_reindented (f : Nat → Nat) (line : List Char) :
    indentWidth (reindented f line) = f (indentWidth line) :=
  indentWidth_replicate_append _ (startsBlank_trimStart line)

/-- A line with the tabs in front of it as spaces up to the next tab stop, when counting from
`column`. -/
def expandedFrom (column : Nat) : List Char → List Char
  | [] => []
  | c :: cs =>
    if c = '\t' then
      List.replicate (tabWidth - column % tabWidth) ' ' ++
        expandedFrom (column + (tabWidth - column % tabWidth)) cs
    else if isBlank c then c :: expandedFrom (column + 1) cs
    else c :: cs

private theorem indentFrom_expandedFrom (column : Nat) (line : List Char) :
    indentFrom column (expandedFrom column line) = indentFrom column line := by
  induction line generalizing column with
  | nil => rfl
  | cons c line ih =>
    rw [expandedFrom, indentFrom]
    split
    · rw [indentFrom_replicate_append, ih]
    · next ht =>
      split
      · next hb => rw [indentFrom, if_neg ht, if_pos hb, ih]
      · next hb => rw [indentFrom, if_neg ht, if_neg hb]

private theorem trimStart_expandedFrom (column : Nat) (line : List Char) :
    trimStart (expandedFrom column line) = trimStart line := by
  induction line generalizing column with
  | nil => rfl
  | cons c line ih =>
    rw [expandedFrom]
    split
    · next ht =>
      rw [trimStart, List.dropWhile_append_of_pos (by simp [isBlank]), ht,
        trimStart, List.dropWhile_cons_of_pos rfl]
      exact ih _
    · split
      · next hb =>
        rw [trimStart, trimStart, List.dropWhile_cons_of_pos hb, List.dropWhile_cons_of_pos hb]
        exact ih _
      · rfl

private theorem lineFeed_notMem_expandedFrom (column : Nat) {line : List Char} (h : '\n' ∉ line) :
    '\n' ∉ expandedFrom column line := by
  induction line generalizing column with
  | nil => exact h
  | cons c line ih =>
    rw [List.mem_cons, not_or] at h
    rw [expandedFrom]
    split
    · simp [ih _ h.2]
    · split
      · simp [ih _ h.2, h.1]
      · simp [h.1, h.2]

/-! ### Line endings -/

/-- A text with a carriage return before every line feed. -/
def withReturns (cs : List Char) : List Char :=
  cs.flatMap (fun c ↦ if c = '\n' then ['\r', '\n'] else [c])

/-- A text without the carriage returns right before line feeds. -/
def withoutReturns : List Char → List Char
  | [] => []
  | '\r' :: '\n' :: cs => '\n' :: withoutReturns cs
  | c :: cs => c :: withoutReturns cs

private theorem withReturns_of_notMem {line : List Char} (h : '\n' ∉ line) :
    withReturns line = line := by
  induction line with
  | nil => rfl
  | cons c line ih =>
    rw [List.mem_cons, not_or] at h
    rw [withReturns, List.flatMap_cons, if_neg (Ne.symm h.1)]
    exact congrArg (c :: ·) (ih h.2)

private theorem withReturns_append {line : List Char} (h : '\n' ∉ line) (rest : List Char) :
    withReturns (line ++ '\n' :: rest) = (line ++ ['\r']) ++ '\n' :: withReturns rest := by
  have hline := withReturns_of_notMem h
  rw [withReturns] at hline
  rw [withReturns, List.flatMap_append, hline, List.append_assoc]
  rfl

private theorem withoutReturns_append {start : List Char} (h : '\n' ∉ start) (rest : List Char)
    (hr : start.getLast? = some '\r' → rest.head? ≠ some '\n') :
    withoutReturns (start ++ rest) = start ++ withoutReturns rest := by
  induction start with
  | nil => rfl
  | cons c start ih =>
    rw [List.mem_cons, not_or] at h
    have hjoin : ∀ cs, c = '\r' → start ++ rest = '\n' :: cs → False := by
      intro cs hc he
      cases start with
      | nil => exact hr (by rw [hc]; rfl) (by rw [← List.nil_append rest, he]; rfl)
      | cons d start => exact h.2 (by simp [(List.cons.inj he).1])
    have hrest : start.getLast? = some '\r' → rest.head? ≠ some '\n' := by
      intro hs
      apply hr
      rw [List.getLast?_cons, hs]
      rfl
    rw [List.cons_append, withoutReturns.eq_3 _ _ hjoin, ih h.2 hrest]
    rfl

private theorem withoutReturns_cut {line : List Char} (h : '\n' ∉ line) (rest : List Char) :
    withoutReturns (line ++ '\n' :: rest) = dropReturn line ++ '\n' :: withoutReturns rest := by
  unfold dropReturn
  split
  · next hr =>
    obtain ⟨start, rfl⟩ := List.getLast?_eq_some_iff.mp hr
    rw [List.dropLast_concat, List.append_assoc,
      withoutReturns_append (fun hm ↦ h (List.mem_append_left _ hm)) _ (by simp)]
    rfl
  · next hr => exact withoutReturns_append h _ (fun he ↦ absurd he hr)

/-- Returns before line feeds make no difference. -/
theorem sourceLinesFrom_withReturns (start : Nat) (cs : List Char) :
    sourceLinesFrom start (pieces (withReturns cs)) = sourceLinesFrom start (pieces cs) := by
  induction cs using text_induction generalizing start with
  | last line hn => rw [withReturns_of_notMem hn]
  | step line rest hn ih =>
    rw [withReturns_append hn, sourceLinesFrom_pieces_append (by simpa using hn),
      sourceLinesFrom_pieces_append hn, ih, SourceLine.ofRaw_append_return]

/-- Nor does their absence. -/
theorem sourceLinesFrom_withoutReturns (start : Nat) (cs : List Char) :
    sourceLinesFrom start (pieces (withoutReturns cs)) = sourceLinesFrom start (pieces cs) := by
  induction cs using text_induction generalizing start with
  | last line hn =>
    have hline : withoutReturns line = line := by
      simpa [withoutReturns] using withoutReturns_append hn [] (by simp)
    rw [hline]
  | step line rest hn ih =>
    have hd : '\n' ∉ dropReturn line := by
      unfold dropReturn
      split
      · exact fun hm ↦ hn ((List.dropLast_sublist line).subset hm)
      · exact hn
    rw [withoutReturns_cut hn, sourceLinesFrom_pieces_append hd,
      sourceLinesFrom_pieces_append hn, ih, SourceLine.ofRaw_dropReturn]

/-! ### Programs -/

namespace Program

/-- A map that keeps the order of indentations makes no difference. -/
theorem ofScript_reindented {f : Nat → Nat} (hf : ∀ m n, m < n → f m < f n) (script : String) :
    ofScript (relined (fun _ ↦ reindented f) script) = ofScript script := by
  apply ofScript_relined
  · intro _ line hn hm
    rw [reindented, List.mem_append, List.mem_replicate] at hm
    rcases hm with ⟨-, hspace⟩ | hm
    · cases hspace
    · exact hn ((List.dropWhile_sublist _).subset hm)
  · exact fun _ ↦ trim_reindented f
  · intro _ line _ other _ _
    rw [indentWidth_reindented, indentWidth_reindented]
    -- an increasing map also reflects the order, since it keeps the opposite one
    have hlt := hf (indentWidth line) (indentWidth other)
    have hgt := hf (indentWidth other) (indentWidth line)
    by_cases heq : indentWidth line = indentWidth other
    · rw [heq]
      simp
    · omega

/-- Spaces for the tabs in front of lines make no difference. -/
theorem ofScript_expanded (script : String) :
    ofScript (relined (fun _ ↦ expandedFrom 0) script) = ofScript script := by
  apply ofScript_relined
  · exact fun _ _ ↦ lineFeed_notMem_expandedFrom 0
  · intro _ line
    rw [← trim_trimStart, trimStart_expandedFrom, trim_trimStart]
  · intro _ line _ other _ _
    rw [indentWidth, indentWidth, indentWidth, indentWidth, indentFrom_expandedFrom,
      indentFrom_expandedFrom]

/-- Blanks behind lines make no difference. -/
theorem ofScript_append_blanks {gap : Nat → List Char}
    (hg : ∀ i, ∀ c ∈ gap i, isBlank c ∧ c ≠ '\n') (script : String) :
    ofScript (relined (fun i line ↦ line ++ gap i) script) = ofScript script := by
  apply ofScript_relined
  · intro i line hn hm
    rw [List.mem_append] at hm
    rcases hm with hm | hm
    · exact hn hm
    · exact (hg i _ hm).2 rfl
  · exact fun i line ↦ trim_append_blanks line (fun c hc ↦ (hg i c hc).1)
  · intro i line j other hs ho
    rw [indentWidth_append hs, indentWidth_append ho]

/-- Only the order of indentations counts, and no other layout. Two scripts make the same program
if their lines say the same and are indented in the same order. So does a script that is indented
anew by a strictly increasing map, has spaces for the tabs in front of its lines, blanks behind
them, or other line endings. -/
theorem ofScript_order_only :
    (∀ script other : String, SameOrder (rawLines script.toList) (rawLines other.toList) →
      ofScript script = ofScript other) ∧
    (∀ (f : Nat → Nat) (script : String), (∀ m n, m < n → f m < f n) →
      ofScript (relined (fun _ ↦ reindented f) script) = ofScript script) ∧
    (∀ script, ofScript (relined (fun _ ↦ expandedFrom 0) script) = ofScript script) ∧
    (∀ (gap : Nat → List Char) (script : String), (∀ i, ∀ c ∈ gap i, isBlank c ∧ c ≠ '\n') →
      ofScript (relined (fun i line ↦ line ++ gap i) script) = ofScript script) ∧
    ∀ script : String, ofScript (String.ofList (withReturns script.toList)) = ofScript script ∧
      ofScript (String.ofList (withoutReturns script.toList)) = ofScript script := by
  refine ⟨fun script other h ↦ h.foldl_take 1, fun f script hf ↦ ofScript_reindented hf script,
    ofScript_expanded, fun gap script hg ↦ ofScript_append_blanks hg script, fun script ↦ ?_⟩
  simp only [ofScript, sourceLines_eq, String.toList_ofList, sourceLinesFrom_withReturns,
    sourceLinesFrom_withoutReturns, and_self]

/-- A conditional indented by spaces, and the same by tabs, with a line between that says nothing
known; three columns for one, and blanks behind every line. -/
theorem ofScript_order_only_tabs :
    let script := "when A.B\n  if x then\n    set y to 1\n  what\n  else\n    set y to 2\n"
    let other := "when A.B\n\tif x then \r\n \t set y to 1\n\twhat\n\telse\n\t set y to 2"
    SameOrder (rawLines script.toList) (rawLines other.toList) ∧
      ofScript script = ofScript other ∧
      ofScript (relined (fun _ ↦ reindented (3 * ·)) script) = ofScript script ∧
      ofScript (relined (fun i line ↦ line ++ List.replicate i ' ') script) = ofScript script := by
  intro script other
  have hsame : SameOrder (rawLines script.toList) (rawLines other.toList) :=
    ⟨by decide +kernel, by decide +kernel⟩
  have hspaces : ∀ i, ∀ c ∈ List.replicate i ' ', isBlank c ∧ c ≠ '\n' := by
    intro i c hc
    rw [List.eq_of_mem_replicate hc]
    decide
  refine ⟨hsame, ofScript_order_only.1 script other hsame, ?_, ?_⟩
  · apply ofScript_order_only.2.1
    omega
  · exact ofScript_order_only.2.2.2.1 (fun i ↦ List.replicate i ' ') script hspaces

end Program

end Blockwright.Script
