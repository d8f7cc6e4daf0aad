import Blockwright.Proofs.Slices
import Blockwright.Script.Cursor
import Blockwright.Script.Operand

/-!
# Reading by byte offsets

A scanner knows its place in a line by a byte offset alone, and whatever it looks at it first has to
cut out of the line; a cut between the bytes of one character fails. The scanner of a cursor answers
every question as the cursor does and moves as it does. So no cut ever fails, a question that is
answered by no leaves the offset where it is, and a word is read exactly as long as it is.
-/

namespace Blockwright.Script

open Blockwright.Text

/-- The answers that say that there was nothing to read. -/
def Answer.isRefusal : Answer → Bool
  | .holds yes => !yes
  | .named name => name.isNone

private theorem sameBytes_iff_spells {head word : String} :
    sameBytes head word ↔ Spells word head.toList := by
  rw [sameBytes_eq, sameLetters, beq_iff_eq, Spells]

/-! ### Scanners -/

/-- A place in a text, known by its byte offset. -/
structure Scanner where
  text : String
  offset : Nat
  deriving DecidableEq, Repr

namespace Scanner

/-- The scanner before the first character of a line. -/
def start (line : String) : Scanner := ⟨line, 0⟩

/-- What is behind the scanner's place, unless the place is inside a character. -/
def rest? (s : Scanner) : Option String := slice? s.text s.offset s.text.utf8ByteSize

/-- The character at the scanner's place, if there is one, unless the place is inside one. -/
def peek? (s : Scanner) : Option (Option Char) := s.rest?.map (fun rest ↦ rest.toList.head?)

/-- The scanner moved forward by some bytes. -/
def skip (s : Scanner) (size : Nat) : Scanner := { s with offset := s.offset + size }

private theorem offset_lt_of_peek? {s : Scanner} {c : Char} (h : s.peek? = some (some c)) :
    s.offset < s.text.utf8ByteSize := by
  obtain ⟨rest, hrest, hhead⟩ := Option.map_eq_some_iff.mp h
  obtain ⟨before, behind, -, hoffset, hsize⟩ := slice?_eq_some_iff.mp hrest
  have hne : rest.utf8ByteSize ≠ 0 := by
    intro hzero
    rw [String.utf8ByteSize_eq_zero_iff.mp hzero] at hhead
    simp at hhead
  omega

/-- The scanner behind all characters of a sort. -/
def skipWhile? (accepts : Char → Bool) (s : Scanner) : Option Scanner :=
  match _hpeek : s.peek? with
  | none => none
  | some none => some s
  | some (some c) => if accepts c then skipWhile? accepts (s.skip c.utf8Size) else some s
termination_by s.text.utf8ByteSize - s.offset
decreasing_by
  have hlt := offset_lt_of_peek? _hpeek
  have hpos := c.utf8Size_pos
  simp only [skip]
  omega

/-- Reads all characters of a sort. -/
def takeWhile? (accepts : Char → Bool) (s : Scanner) : Option (String × Scanner) := do
  let next ← s.skipWhile? accepts
  let read ← slice? s.text s.offset next.offset
  return (read, next)

/-- Reads blanks; also whether there were any. -/
def blanks? (s : Scanner) : Option (Bool × Scanner) := do
  let read ← s.takeWhile? isBlank
  return (!read.1.isEmpty, read.2)

/-- Reads a name, if there is one. -/
def name? (s : Scanner) : Option (Option String × Scanner) := do
  let read ← s.takeWhile? isNameChar
  return (if read.1.isEmpty then none else some read.1, read.2)

/-- Reads a whole word, if it is there. The text behind is cut where the word would end, and that
the place is inside a character is an answer, not a failure. -/
def keyword? (word : String) (s : Scanner) : Option (Bool × Scanner) := do
  let rest ← s.rest?
  match slice? rest 0 word.utf8ByteSize with
  | none => return (false, s)
  | some head =>
    if sameBytes head word then
      let behind ← slice? rest word.utf8ByteSize rest.utf8ByteSize
      return if continuesName behind.toList then (false, s) else (true, s.skip word.utf8ByteSize)
    else return (false, s)

/-- Reads a whole word and the blanks behind it, and goes back if one of them is missing. -/
def keywordBlanks? (word : String) (s : Scanner) : Option (Bool × Scanner) := do
  let found ← s.keyword? word
  if found.1 then
    let gap ← found.2.blanks?
    return if gap.1 then gap else (false, s)
  else return (false, s)

/-- Reads the given character, if it is there. -/
def symbol? (c : Char) (s : Scanner) : Option (Bool × Scanner) := do
  let seen ← s.peek?
  return if seen = some c then (true, s.skip c.utf8Size) else (false, s)

/-- The answer of a reader that tells whether it applied. -/
def holds (result : Option (Bool × Scanner)) : Option (Answer × Scanner) :=
  result.map (fun found ↦ (.holds found.1, found.2))

/-- Asks one question, unless a cut fails. -/
def step? (s : Scanner) : Step → Option (Answer × Scanner)
  | .blanks => holds s.blanks?
  | .name => s.name?.map (fun found ↦ (.named found.1, found.2))
  | .atEnd => some (.holds (s.text.utf8ByteSize ≤ s.offset), s)
  | .keyword word => holds (s.keyword? word)
  | .keywordBlanks word => holds (s.keywordBlanks? word)
  | .symbol c => holds (s.symbol? c)

/-- Asks a list of questions in turn and collects each answer with the text left after it, unless a
cut fails. -/
def run? (s : Scanner) : List Step → Option (List (Answer × String))
  | [] => some []
  | step :: steps => do
    let asked ← s.step? step
    let rest ← asked.2.rest?
    let answers ← asked.2.run? steps
    return (asked.1, rest) :: answers

end Scanner

/-! ### Scanners of cursors -/

namespace Cursor

/-- The scanner at the place of a cursor. -/
def scanner (c : Cursor) : Scanner := ⟨String.ofList (c.passed ++ c.ahead), c.position⟩

/-- The cursor after some questions. -/
def after (c : Cursor) (steps : List Step) : Cursor :=
  steps.foldl (fun c step ↦ (c.step step).2) c

variable (c : Cursor) {read rest : List Char}

private theorem rest?_scanner : c.scanner.rest? = some c.rest := by
  have htext : c.scanner.text = String.ofList c.passed ++ c.rest := String.ofList_append
  rw [Scanner.rest?, htext]
  exact slice?_right _ _

private theorem peek?_scanner : c.scanner.peek? = some c.ahead.head? := by
  rw [Scanner.peek?, rest?_scanner, Option.map_some, Cursor.rest, String.toList_ofList]

variable {c}

private theorem advanceTo_eq (h : c.ahead = read ++ rest) :
    c.advanceTo rest = ⟨c.passed ++ read, rest⟩ := by
  simp [advanceTo, h]

private theorem advanceTo_ahead : c.advanceTo c.ahead = c := by
  rw [advanceTo_eq (List.nil_append c.ahead).symm, List.append_nil]

private theorem advanceTo_advanceTo {behind : List Char} (h : c.ahead = read ++ rest)
    {second : List Char} (hrest : rest = second ++ behind) :
    (c.advanceTo rest).advanceTo behind = c.advanceTo behind := by
  have hboth : c.ahead = (read ++ second) ++ behind := by rw [h, hrest, List.append_assoc]
  rw [advanceTo_eq h, advanceTo_eq hrest, advanceTo_eq hboth, List.append_assoc]

private theorem skip_scanner (h : c.ahead = read ++ rest) :
    c.scanner.skip (String.ofList read).utf8ByteSize = (c.advanceTo rest).scanner := by
  rw [advanceTo_eq h]
  simp [scanner, Scanner.skip, position, h]

private theorem slice?_scanner (h : c.ahead = read ++ rest) :
    slice? c.scanner.text c.scanner.offset (c.advanceTo rest).scanner.offset =
      some (String.ofList read) := by
  rw [advanceTo_eq h, slice?_eq_some_iff]
  refine ⟨String.ofList c.passed, String.ofList rest, ?_, rfl, ?_⟩
  · simp [scanner, h, String.append_assoc]
  · simp [scanner, position]

/-! ### The readers -/

private theorem skipWhile?_scanner (accepts : Char → Bool) : c.scanner.skipWhile? accepts =
    some (c.advanceTo (c.ahead.dropWhile accepts)).scanner := by
  induction h : c.ahead generalizing c with
  | nil =>
    have hpeek : c.scanner.peek? = some none := by rw [peek?_scanner, h, List.head?_nil]
    rw [Scanner.skipWhile?]
    split
    · simp_all
    · rw [List.dropWhile_nil, ← h, advanceTo_ahead]
    · simp_all
  | cons d ahead ih =>
    have hpeek : c.scanner.peek? = some (some d) := by rw [peek?_scanner, h, List.head?_cons]
    have hahead : c.ahead = [d] ++ ahead := h
    have hskip : c.scanner.skip d.utf8Size = (c.advanceTo ahead).scanner := by
      rw [← skip_scanner hahead, ← String.singleton_eq_ofList, String.utf8ByteSize_singleton]
    rw [Scanner.skipWhile?]
    split
    · simp_all
    · simp_all
    · next x hx =>
      rw [hpeek, Option.some.injEq, Option.some.injEq] at hx
      subst hx
      by_cases hd : accepts d
      · rw [if_pos hd, hskip, ih rfl, List.dropWhile_cons_of_pos hd,
          advanceTo_advanceTo hahead List.takeWhile_append_dropWhile.symm]
      · rw [if_neg hd, List.dropWhile_cons_of_neg hd, ← h, advanceTo_ahead]

private theorem takeWhile?_scanner (accepts : Char → Bool) : c.scanner.takeWhile? accepts =
    some (String.ofList (c.ahead.takeWhile accepts),
      (c.advanceTo (c.ahead.dropWhile accepts)).scanner) := by
  have hread := slice?_scanner (c := c) (List.takeWhile_append_dropWhile (p := accepts)).symm
  simp only [Scanner.takeWhile?, skipWhile?_scanner, Option.bind_eq_bind, Option.bind_some, hread]
  rfl

private theorem advanceTo_dropWhile {accepts : Char → Bool} (h : c.ahead.takeWhile accepts = []) :
    c.advanceTo (c.ahead.dropWhile accepts) = c := by
  have hsplit := List.takeWhile_append_dropWhile (p := accepts) (l := c.ahead)
  rw [h, List.nil_append] at hsplit
  rw [hsplit, advanceTo_ahead]

private theorem blanks_eq (ahead : List Char) : Script.blanks ahead =
    if ahead.takeWhile isBlank = [] then none else some (ahead.dropWhile isBlank) := by
  cases ahead with
  | nil => rfl
  | cons d ahead => by_cases hd : isBlank d <;> simp [Script.blanks, hd, trimStart]

private theorem blanks?_scanner : c.scanner.blanks? = some ((Script.blanks c.ahead).isSome,
    (c.test (Script.blanks c.ahead)).2.scanner) := by
  simp only [Scanner.blanks?, takeWhile?_scanner, Option.bind_eq_bind, Option.bind_some, blanks_eq]
  by_cases h : c.ahead.takeWhile isBlank = []
  · simp [h, test, advanceTo_dropWhile h]
  · simp [h, test]

private theorem name?_scanner : c.scanner.step? .name =
    some ((c.step .name).1, (c.step .name).2.scanner) := by
  simp only [Scanner.step?, Scanner.name?, takeWhile?_scanner, Option.bind_eq_bind,
    Option.bind_some, step, Script.name]
  cases h : c.ahead.takeWhile isNameChar with
  | nil => simp [advanceTo_dropWhile h]
  | cons d ds => simp

private theorem exists_of_keyword {word : String}
    (h : Script.keyword word.toList c.ahead = some rest) :
    ∃ head, c.ahead = String.toList head ++ rest ∧ sameBytes head word ∧
      head.utf8ByteSize = word.utf8ByteSize ∧ continuesName rest = false := by
  obtain ⟨spelling, hs, hahead, hrest⟩ := keyword_eq_some_iff.mp h
  have hsame : sameBytes (String.ofList spelling) word := by
    rwa [sameBytes_iff_spells, String.toList_ofList]
  exact ⟨String.ofList spelling, by rwa [String.toList_ofList], hsame,
    utf8ByteSize_eq_of_sameBytes hsame, hrest⟩

private theorem keyword?_of_rest {word head behind : String} (hrest : c.rest = head ++ behind)
    (hsize : head.utf8ByteSize = word.utf8ByteSize) : c.scanner.keyword? word =
      some (if sameBytes head word && !continuesName behind.toList then
        (true, c.scanner.skip word.utf8ByteSize) else (false, c.scanner)) := by
  simp only [Scanner.keyword?, rest?_scanner, Option.bind_eq_bind, Option.bind_some, hrest,
    ← hsize, slice?_left, slice?_right]
  by_cases hsame : sameBytes head word
  · cases continuesName behind.toList <;> simp [hsame]
  · simp [hsame]

private theorem keyword?_scanner (word : String) : c.scanner.keyword? word =
    some ((Script.keyword word.toList c.ahead).isSome,
      (c.test (Script.keyword word.toList c.ahead)).2.scanner) := by
  cases hk : Script.keyword word.toList c.ahead with
  | some rest =>
    obtain ⟨head, hahead, hsame, hsize, hstop⟩ := exists_of_keyword hk
    have hrest : c.rest = head ++ String.ofList rest := by
      rw [Cursor.rest, hahead, String.ofList_append, String.ofList_toList]
    have hskip := skip_scanner hahead
    rw [String.ofList_toList, hsize] at hskip
    rw [keyword?_of_rest hrest hsize, String.toList_ofList, hsame, hstop, hskip]
    rfl
  | none =>
    cases hhead : slice? c.rest 0 word.utf8ByteSize with
    | none =>
      simp only [Scanner.keyword?, rest?_scanner, Option.bind_eq_bind, Option.bind_some, hhead]
      rfl
    | some head =>
      obtain ⟨behind, hrest, hsize⟩ := exists_append_of_slice? hhead
      have hahead : c.ahead = head.toList ++ behind.toList := by
        rw [← String.toList_append, ← hrest, Cursor.rest, String.toList_ofList]
      rw [keyword?_of_rest hrest hsize, if_neg]
      · rfl
      · -- The word would have been read.
        intro hc
        rw [Bool.and_eq_true, Bool.not_eq_true'] at hc
        rw [keyword_eq_some_iff.mpr
          ⟨head.toList, sameBytes_iff_spells.mp hc.1, hahead, hc.2⟩] at hk
        cases hk

private theorem keywordBlanks?_scanner (word : String) : c.scanner.keywordBlanks? word =
    some ((Script.keywordBlanks word.toList c.ahead).isSome,
      (c.test (Script.keywordBlanks word.toList c.ahead)).2.scanner) := by
  simp only [Scanner.keywordBlanks?, keyword?_scanner, Option.bind_eq_bind, Option.bind_some,
    Script.keywordBlanks]
  cases hk : Script.keyword word.toList c.ahead with
  | none => rfl
  | some rest =>
    obtain ⟨head, hahead, -⟩ := exists_of_keyword hk
    have hnext : (c.advanceTo rest).ahead = rest := rfl
    simp only [test, Option.isSome_some, if_true, blanks?_scanner, hnext, Option.bind_some]
    cases hb : Script.blanks rest with
    | none => simp
    | some behind =>
      obtain ⟨gap, -, hrest, -⟩ := blanks_eq_some_iff.mp hb
      simp [advanceTo_advanceTo hahead hrest]

private theorem symbol?_scanner (x : Char) : c.scanner.symbol? x =
    some ((Script.symbol x c.ahead).isSome, (c.test (Script.symbol x c.ahead)).2.scanner) := by
  simp only [Scanner.symbol?, peek?_scanner, Option.bind_eq_bind, Option.bind_some]
  cases hs : Script.symbol x c.ahead with
  | some rest =>
    have hahead : c.ahead = [x] ++ rest := symbol_eq_some_iff.mp hs
    have hskip := skip_scanner hahead
    rw [← String.singleton_eq_ofList, String.utf8ByteSize_singleton] at hskip
    simp [hahead, test, hskip]
  | none =>
    have hhead : c.ahead.head? ≠ some x := by
      intro h
      obtain ⟨rest, hrest⟩ := List.head?_eq_some_iff.mp h
      rw [symbol_eq_some_iff.mpr hrest] at hs
      cases hs
    simp [hhead, test]

/-! ### Steps and runs -/

private theorem test_fst (result : Option (List Char)) :
    (c.test result).1 = .holds result.isSome := by
  cases result <;> rfl

private theorem size_le_offset_iff :
    c.scanner.text.utf8ByteSize ≤ c.scanner.offset ↔ c.ahead = [] := by
  have hsize : c.scanner.text.utf8ByteSize = c.scanner.offset + c.rest.utf8ByteSize := by
    simp [scanner, position, Cursor.rest]
  constructor
  · intro h
    have hempty : c.rest = "" := String.utf8ByteSize_eq_zero_iff.mp (by omega)
    simpa [Cursor.rest] using congrArg String.toList hempty
  · intro h
    rw [hsize, Cursor.rest, h]
    simp

private theorem step?_scanner (step : Step) : c.scanner.step? step =
    some ((c.step step).1, (c.step step).2.scanner) := by
  cases step with
  | name => exact name?_scanner
  | atEnd =>
    have hend : c.ahead.isEmpty = decide (c.scanner.text.utf8ByteSize ≤ c.scanner.offset) := by
      rw [Bool.eq_iff_iff, List.isEmpty_iff, decide_eq_true_iff, size_le_offset_iff]
    simp only [Scanner.step?, Cursor.step, hend]
  | blanks => simp [Scanner.step?, Scanner.holds, blanks?_scanner, Cursor.step, test_fst]
  | keyword word => simp [Scanner.step?, Scanner.holds, keyword?_scanner, Cursor.step, test_fst]
  | keywordBlanks word =>
    simp [Scanner.step?, Scanner.holds, keywordBlanks?_scanner, Cursor.step, test_fst]
  | symbol x => simp [Scanner.step?, Scanner.holds, symbol?_scanner, Cursor.step, test_fst]

variable (c) in
/-- A scanner gives the answers of its cursor all along a run. -/
theorem run?_scanner (steps : List Step) : c.scanner.run? steps = some (c.run steps) := by
  induction steps generalizing c with
  | nil => rfl
  | cons step steps ih => simp [Scanner.run?, step?_scanner, rest?_scanner, ih, run]

private theorem text_test {result : Option (List Char)}
    (h : ∀ rest ∈ result, ∃ read, c.ahead = read ++ rest) :
    (c.test result).2.passed ++ (c.test result).2.ahead = c.passed ++ c.ahead := by
  cases result with
  | none => rfl
  | some rest =>
    obtain ⟨read, hread⟩ := h rest rfl
    simp [test, advanceTo_eq hread, hread]

/-- A step loses and adds no character. -/
theorem text_step (step : Step) :
    (c.step step).2.passed ++ (c.step step).2.ahead = c.passed ++ c.ahead := by
  cases step with
  | atEnd => rfl
  | name =>
    rw [Cursor.step]
    split
    · next read rest h =>
      obtain ⟨-, hahead, -⟩ := name_eq_some_iff.mp h
      simp [advanceTo_eq hahead, hahead]
    · rfl
  | blanks =>
    apply text_test
    intro rest h
    obtain ⟨gap, -, hahead, -⟩ := blanks_eq_some_iff.mp h
    exact ⟨gap, hahead⟩
  | keyword word =>
    apply text_test
    intro rest h
    obtain ⟨spelling, -, hahead, -⟩ := keyword_eq_some_iff.mp h
    exact ⟨spelling, hahead⟩
  | keywordBlanks word =>
    apply text_test
    intro rest h
    obtain ⟨lead, -, hahead, -⟩ := keywordBlanks_eq_some_iff.mp h
    exact ⟨lead, hahead⟩
  | symbol x =>
    apply text_test
    intro rest h
    exact ⟨[x], symbol_eq_some_iff.mp h⟩

variable (c) in
/-- A run loses and adds no character. -/
theorem text_after (steps : List Step) :
    (c.after steps).passed ++ (c.after steps).ahead = c.passed ++ c.ahead := by
  induction steps generalizing c with
  | nil => rfl
  | cons step steps ih => exact (ih _).trans (text_step step)

private theorem step_of_isRefusal {step : Step} (h : (c.step step).1.isRefusal) :
    (c.step step).2 = c := by
  have htest {result : Option (List Char)} (h : (c.test result).1.isRefusal) :
      (c.test result).2 = c := by
    cases result with
    | none => rfl
    | some rest => cases h
  cases step with
  | atEnd => rfl
  | name =>
    rw [Cursor.step] at h ⊢
    split at h
    · cases h
    · rfl
  | blanks => exact htest h
  | keyword word => exact htest h
  | keywordBlanks word => exact htest h
  | symbol x => exact htest h

end Cursor

/-! ### Operands -/

/-- A value without the pair of equal quotes around it, found by the first and the last byte. -/
def dropQuotesAt? (value : String) : Option String :=
  if 2 ≤ value.utf8ByteSize ∧ (bytes value).head? = (bytes value).getLast? ∧
      ((bytes value).head? = some 34 ∨ (bytes value).head? = some 39) then
    slice? value 1 (value.utf8ByteSize - 1)
  else some value

/-- A value as written, cut out of the trimmed text by bytes. -/
def unquoteAt? (text : String) : Option String := dropQuotesAt? (String.ofList (trim text.toList))

/-- The trimmed text before a closing word, found as many bytes before the end as the word has. That
the text is too short or cannot be cut there is an answer, not a failure. -/
def beforeWordAt? (word text : String) : Option (Option String) :=
  let cut := text.utf8ByteSize - word.utf8ByteSize
  if word.utf8ByteSize ≤ text.utf8ByteSize ∧ IsBoundary text cut then do
    let ending ← slice? text cut text.utf8ByteSize
    if sameBytes ending word then
      let head ← slice? text 0 cut
      return if endsBlank head.toList && !(trim head.toList).isEmpty then
        some (String.ofList (trim head.toList)) else none
    else return none
  else some none

/-- A value stands in quotes. -/
def InQuotes (value : List Char) : Prop :=
  ∃ quote inside, isQuote quote ∧ value = quote :: (inside ++ [quote])

private theorem toNat_lt_of_isQuote {quote : Char} (h : isQuote quote) : quote.toNat < 128 := by
  simp only [isQuote, Bool.or_eq_true, beq_iff_eq] at h
  rcases h with rfl | rfl <;> decide

private theorem head?_bytes_isQuote_iff (cs : List Char) :
    ((bytes (String.ofList cs)).head? = some 34 ∨ (bytes (String.ofList cs)).head? = some 39) ↔
      ∃ quote, isQuote quote ∧ cs.head? = some quote := by
  have hdouble := @head?_bytes_eq_iff '"' (by decide) cs
  have hsingle := @head?_bytes_eq_iff '\'' (by decide) cs
  simp only [isQuote, Bool.or_eq_true, beq_iff_eq]
  constructor
  · rintro (h | h)
    · exact ⟨_, .inl rfl, hdouble.mp h⟩
    · exact ⟨_, .inr rfl, hsingle.mp h⟩
  · rintro ⟨quote, rfl | rfl, h⟩
    · exact .inl (hdouble.mpr h)
    · exact .inr (hsingle.mpr h)

/-- A value stands in quotes exactly if it has two bytes or more and the first and the last are the
byte of one quote. -/
theorem inQuotes_iff (cs : List Char) : InQuotes cs ↔
    2 ≤ (String.ofList cs).utf8ByteSize ∧
      (bytes (String.ofList cs)).head? = (bytes (String.ofList cs)).getLast? ∧
      ((bytes (String.ofList cs)).head? = some 34 ∨
        (bytes (String.ofList cs)).head? = some 39) := by
  rw [head?_bytes_isQuote_iff]
  constructor
  · rintro ⟨quote, inside, hq, rfl⟩
    have hlt := toNat_lt_of_isQuote hq
    have hlast : (quote :: (inside ++ [quote])).getLast? = some quote := by
      rw [← List.cons_append, List.getLast?_concat]
    refine ⟨?_, ?_, quote, hq, rfl⟩
    · have hpos := quote.utf8Size_pos
      simp only [String.ofList_cons, String.ofList_append, String.utf8ByteSize_append,
        String.utf8ByteSize_singleton, String.ofList_nil, String.utf8ByteSize_empty]
      omega
    · rw [(head?_bytes_eq_iff hlt _).mpr rfl, (getLast?_bytes_eq_iff hlt _).mpr hlast]
  · rintro ⟨hsize, hends, quote, hq, hhead⟩
    have hlt := toNat_lt_of_isQuote hq
    have hlast := (getLast?_bytes_eq_iff hlt cs).mp
      (hends.symm.trans ((head?_bytes_eq_iff hlt cs).mpr hhead))
    obtain ⟨others, rfl⟩ := List.head?_eq_some_iff.mp hhead
    rcases List.eq_nil_or_concat others with rfl | ⟨inside, last, rfl⟩
    · -- One quote alone is one byte.
      rw [← String.singleton_eq_ofList, String.utf8ByteSize_singleton, utf8Size_of_lt hlt] at hsize
      omega
    · rw [List.concat_eq_append, ← List.cons_append, List.getLast?_concat,
        Option.some.injEq] at hlast
      exact ⟨quote, inside, hq, by rw [List.concat_eq_append, hlast]⟩

private theorem dropQuotes_of_not_inQuotes {cs : List Char} (h : ¬ InQuotes cs) :
    dropQuotes cs = cs := by
  cases cs with
  | nil => rfl
  | cons c cs =>
    rw [dropQuotes, if_neg]
    intro hq
    rw [Bool.and_eq_true, beq_iff_eq, List.getLast?_eq_some_iff] at hq
    obtain ⟨hc, inside, rfl⟩ := hq
    exact h ⟨c, inside, hc, rfl⟩

/-- The quotes are cut off between characters. -/
theorem dropQuotesAt?_eq (cs : List Char) :
    dropQuotesAt? (String.ofList cs) = some (String.ofList (dropQuotes cs)) := by
  rw [dropQuotesAt?]
  by_cases h : InQuotes cs
  · rw [if_pos ((inQuotes_iff cs).mp h), slice?_eq_some_iff]
    obtain ⟨quote, inside, hq, rfl⟩ := h
    have hone := utf8Size_of_lt (toNat_lt_of_isQuote hq)
    have hdrop : dropQuotes (quote :: (inside ++ [quote])) = inside := by
      simp [dropQuotes, hq]
    rw [hdrop]
    refine ⟨String.singleton quote, String.singleton quote, ?_, ?_, ?_⟩
    · simp only [String.ofList_cons, String.ofList_append, String.ofList_nil, String.append_empty,
        String.append_assoc]
    · rw [String.utf8ByteSize_singleton, hone]
    · simp [String.ofList_cons, hone]
      omega
  · rw [if_neg (fun hbytes ↦ h ((inQuotes_iff cs).mpr hbytes)), dropQuotes_of_not_inQuotes h]

private theorem beforeWordAt?_append {word head ending : String}
    (h : ending.utf8ByteSize = word.utf8ByteSize) : beforeWordAt? word (head ++ ending) =
      some (if sameBytes ending word && endsBlank head.toList && !(trim head.toList).isEmpty then
        some (String.ofList (trim head.toList)) else none) := by
  have hsize : (head ++ ending).utf8ByteSize = head.utf8ByteSize + word.utf8ByteSize := by
    rw [String.utf8ByteSize_append, h]
  have hcut : (head ++ ending).utf8ByteSize - word.utf8ByteSize = head.utf8ByteSize := by omega
  have hboundary : IsBoundary (head ++ ending) head.utf8ByteSize :=
    isBoundary_iff.mpr ⟨head, ending, rfl, rfl⟩
  rw [beforeWordAt?, hcut, if_pos ⟨by omega, hboundary⟩, slice?_right, slice?_left]
  by_cases hsame : sameBytes ending word <;> simp [hsame]

/-- The text before a closing word is cut off between characters. -/
theorem beforeWordAt?_eq (word text : String) : beforeWordAt? word text =
    some ((beforeWord word.toList text.toList).map String.ofList) := by
  cases hb : beforeWord word.toList text.toList with
  | some condition =>
    obtain ⟨head, spelling, hblank, hs, htext, rfl, hne⟩ := Rule.beforeWord_eq_some_iff.mp hb
    have hsame : sameBytes (String.ofList spelling) word := by
      rwa [sameBytes_iff_spells, String.toList_ofList]
    have hcut : text = String.ofList head ++ String.ofList spelling := by
      rw [← String.ofList_append, ← htext, String.ofList_toList]
    rw [hcut, beforeWordAt?_append (utf8ByteSize_eq_of_sameBytes hsame)]
    simp [hsame, hblank, hne]
  | none =>
    by_cases hcut : word.utf8ByteSize ≤ text.utf8ByteSize ∧
        IsBoundary text (text.utf8ByteSize - word.utf8ByteSize)
    · obtain ⟨hle, hboundary⟩ := hcut
      obtain ⟨head, ending, rfl, hsize⟩ := isBoundary_iff.mp hboundary
      rw [String.utf8ByteSize_append] at hle hsize
      rw [beforeWordAt?_append (by omega), if_neg, Option.map_none]
      intro hc
      simp only [Bool.and_eq_true, Bool.not_eq_true', List.isEmpty_eq_false_iff] at hc
      obtain ⟨⟨hsame, hblank⟩, hne⟩ := hc
      rw [Rule.beforeWord_eq_some_iff.mpr ⟨head.toList, ending.toList, hblank,
        sameBytes_iff_spells.mp hsame, String.toList_append, rfl, hne⟩] at hb
      cases hb
    · rw [beforeWordAt?, if_neg hcut, Option.map_none]

/-! ### Runs along a line -/

namespace Cursor

/-- A cursor that stands between two characters of a line: the bytes before it and the rest make up
the line, and the rest can be cut out. -/
structure StandsIn (line : String) (c : Cursor) : Prop where
  isBoundary : IsBoundary line c.position
  position_le : c.position ≤ line.utf8ByteSize
  bytes_eq : (bytes line).take c.position ++ bytes c.rest = bytes line
  rest?_eq : Scanner.rest? ⟨line, c.position⟩ = some c.rest

/-- What a step does at a cursor in a line: reading by bytes gives the same answer and leads to the
same place, a step that is answered by no goes nowhere, and a word that is read is read exactly as
long as it is, in any mix of cases, and as a whole. -/
structure StepsIn (line : String) (c : Cursor) : Prop where
  step?_eq : ∀ step, Scanner.step? ⟨line, c.position⟩ step =
    some ((c.step step).1, ⟨line, (c.step step).2.position⟩)
  of_isRefusal : ∀ step, (c.step step).1.isRefusal → (c.step step).2 = c
  of_keyword : ∀ word, (c.step (.keyword word)).1 = .holds true →
    (c.step (.keyword word)).2.position = c.position + word.utf8ByteSize ∧
    (∃ read, slice? line c.position (c.position + word.utf8ByteSize) = some read ∧
      sameBytes read word) ∧
    continuesName (c.step (.keyword word)).2.ahead = false

variable {line : String} {c : Cursor}

/-- A cursor over the characters of a line is a place in the line. -/
theorem scanner_eq (h : c.passed ++ c.ahead = line.toList) : c.scanner = ⟨line, c.position⟩ := by
  rw [scanner, h, String.ofList_toList]

/-- A cursor over the characters of a line stands in it. -/
theorem standsIn_of_text (h : c.passed ++ c.ahead = line.toList) : c.StandsIn line := by
  have hline : line = String.ofList c.passed ++ c.rest := by
    rw [Cursor.rest, ← String.ofList_append, h, String.ofList_toList]
  have hboundary : IsBoundary line c.position := isBoundary_iff.mpr ⟨_, _, hline, rfl⟩
  refine ⟨hboundary, hboundary.le, ?_, ?_⟩
  · rw [hline, bytes_append, position, ← length_bytes, List.take_left]
  · rw [← scanner_eq h, rest?_scanner]

private theorem keyword_moves (h : c.passed ++ c.ahead = line.toList) {word : String}
    (hk : (c.step (.keyword word)).1 = .holds true) :
    (c.step (.keyword word)).2.position = c.position + word.utf8ByteSize ∧
    (∃ read, slice? line c.position (c.position + word.utf8ByteSize) = some read ∧
      sameBytes read word) ∧
    continuesName (c.step (.keyword word)).2.ahead = false := by
  rw [Cursor.step, test_fst, Answer.holds.injEq] at hk
  obtain ⟨rest, hrest⟩ := Option.isSome_iff_exists.mp hk
  obtain ⟨head, hahead, hsame, hsize, hstop⟩ := exists_of_keyword hrest
  have hnext : (c.step (.keyword word)).2 = c.advanceTo rest := by rw [Cursor.step, hrest, test]
  have hposition : (c.advanceTo rest).position = c.position + word.utf8ByteSize := by
    rw [advanceTo_eq hahead, position, String.ofList_append, String.ofList_toList,
      String.utf8ByteSize_append, hsize, position]
  have hread := slice?_scanner hahead
  rw [scanner_eq h, String.ofList_toList] at hread
  rw [hnext]
  refine ⟨hposition, ⟨head, ?_, hsame⟩, hstop⟩
  rw [← hposition]
  exact hread

/-- A cursor over the characters of a line steps in it. -/
theorem stepsIn_of_text (h : c.passed ++ c.ahead = line.toList) : c.StepsIn line where
  step?_eq step := by
    rw [← scanner_eq h, step?_scanner, scanner_eq ((text_step step).trans h)]
  of_isRefusal _ := step_of_isRefusal
  of_keyword _ := keyword_moves h

/-- Whatever is asked along a line, reading by byte offsets never cuts a character and gives the
answers of the cursor; the cursor stands between characters, goes nowhere on a no, and moves over a
word by its size. Quotes and closing words are cut off between characters, too. -/
theorem stays_on_boundaries (line : String) (steps : List Step) :
    (Scanner.start line).run? steps = some ((start line).run steps) ∧
    ((start line).after steps).StandsIn line ∧
    ((start line).after steps).StepsIn line ∧
    (∀ text, unquoteAt? text = some (String.ofList (unquote text.toList))) ∧
    (∀ word text, beforeWordAt? word text =
      some ((beforeWord word.toList text.toList).map String.ofList)) := by
  have htext : ((start line).after steps).passed ++ ((start line).after steps).ahead =
      line.toList := by
    rw [text_after]
    rfl
  have hstart : (start line).scanner = Scanner.start line := @scanner_eq line (start line) rfl
  refine ⟨?_, standsIn_of_text htext, stepsIn_of_text htext, ?_, beforeWordAt?_eq⟩
  · rw [← hstart, run?_scanner]
  · intro text
    exact dropQuotesAt?_eq (trim text.toList)

/-- Behind a blank, a word with an umlaut is no name, and is read by its five bytes as the word in
other cases. -/
theorem stays_on_boundaries_umlaut : ∃ c, c = (start " ÜBER x").after [.blanks] ∧
    (c.step .name).1.isRefusal ∧ (c.step .name).2 = c ∧
    (c.step (.keyword "Über")).1 = .holds true ∧
    (c.step (.keyword "Über")).2.position = c.position + "Über".utf8ByteSize ∧
    "Über".utf8ByteSize = 5 := by
  obtain ⟨-, -, hsteps, -⟩ := stays_on_boundaries " ÜBER x" [.blanks]
  have hname : (((start " ÜBER x").after [.blanks]).step .name).1.isRefusal := by decide +kernel
  have hword : (((start " ÜBER x").after [.blanks]).step (.keyword "Über")).1 = .holds true := by
    decide +kernel
  exact ⟨_, rfl, hname, hsteps.of_isRefusal .name hname, hword,
    (hsteps.of_keyword "Über" hword).1, by decide +kernel⟩

end Cursor

end Blockwright.Script
