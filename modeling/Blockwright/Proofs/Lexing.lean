import Blockwright.Json.Print

/-!
# Tokens are found again in the text

How the tokens of a document may be written, and that they are found again: brackets, separators,
literal words, texts with any escapes, numbers as long as what follows cannot be taken for more of
the number, and any blanks before, between and behind them. The printer writes tokens in one of
these ways.
-/

namespace Blockwright.Json

/-! ### One token after the other -/

private theorem tokens_gap_append {gap : List Char} (h : ∀ c ∈ gap, isGap c) (cs : List Char) :
    tokens (gap ++ cs) = tokens cs := by
  rw [tokens.eq_def, tokens.eq_def cs, List.dropWhile_append_of_pos h]

private theorem tokens_gap {gap : List Char} (h : ∀ c ∈ gap, isGap c) : tokens gap = [] := by
  have hempty : tokens [] = [] := by rw [tokens]; rfl
  rw [← List.append_nil gap, tokens_gap_append h, hempty]

/-- A character that is no blank starts a token. -/
theorem tokens_cons {c : Char} (h : isGap c = false) (cs : List Char) :
    tokens (c :: cs) = (lexeme c cs).1 :: tokens (lexeme c cs).2 := by
  rw [tokens]
  split
  · next hd => simp [h] at hd
  · next d rest hd =>
    rw [List.dropWhile_cons_of_neg (by simp [h])] at hd
    cases hd
    rfl

private theorem tokens_punctuation {c : Char} {token : Token} (h : punctuation? c = some token)
    (cs : List Char) : tokens (c :: cs) = token :: tokens cs := by
  have hgap : isGap c = false := by
    unfold punctuation? at h
    unfold isGap
    grind
  have hlex : lexeme c cs = (token, cs) := by
    rw [lexeme, h]
  rw [tokens_cons hgap, hlex]

/-! ### Texts -/

/-- Whether a text goes on with the second half of a surrogate pair. -/
def ContinuesPair (cs : List Char) : Prop :=
  ∃ a b c d rest unit, cs = '\\' :: 'u' :: a :: b :: c :: d :: rest ∧
    hexUnit? a b c d = some unit ∧ isTrailing unit

/-- What may stand between the quotes of a text, with the content that it stands for. Half of a
surrogate pair that stands alone leaves the text without content. -/
inductive Spells : Option (List Char) → List Char → Prop where
  | nil : Spells (some []) []
  /-- A character as it is. -/
  | plain {c : Char} {content : Option (List Char)} {cs : List Char} (quote : c ≠ '"')
    (escape : c ≠ '\\') (control : ¬ c.toNat < 0x20) (rest : Spells content cs) :
    Spells (content.map (c :: ·)) (c :: cs)
  /-- A character behind a backslash. -/
  | short {escape c : Char} {content : Option (List Char)} {cs : List Char}
    (short_eq : shortEscape? escape = some c) (rest : Spells content cs) :
    Spells (content.map (c :: ·)) ('\\' :: escape :: cs)
  /-- A character by its code point. -/
  | unit {a b c d : Char} {n : Nat} {content : Option (List Char)} {cs : List Char}
    (unit_eq : hexUnit? a b c d = some n) (leading : isLeading n = false)
    (trailing : isTrailing n = false) (rest : Spells content cs) :
    Spells (content.map (Char.ofNat n :: ·)) ('\\' :: 'u' :: a :: b :: c :: d :: cs)
  /-- A character by a surrogate pair. -/
  | pair {a b c d a' b' c' d' : Char} {m n : Nat} {content : Option (List Char)} {cs : List Char}
    (first_eq : hexUnit? a b c d = some m) (leading : isLeading m)
    (second_eq : hexUnit? a' b' c' d' = some n) (trailing : isTrailing n)
    (rest : Spells content cs) :
    Spells (content.map (pairChar m n :: ·))
      ('\\' :: 'u' :: a :: b :: c :: d :: '\\' :: 'u' :: a' :: b' :: c' :: d' :: cs)
  /-- The second half of a surrogate pair without the first. -/
  | loneTrailing {a b c d : Char} {n : Nat} {content : Option (List Char)} {cs : List Char}
    (unit_eq : hexUnit? a b c d = some n) (trailing : isTrailing n) (rest : Spells content cs) :
    Spells none ('\\' :: 'u' :: a :: b :: c :: d :: cs)
  /-- The first half of a surrogate pair without the second. -/
  | loneLeading {a b c d : Char} {n : Nat} {content : Option (List Char)} {cs : List Char}
    (unit_eq : hexUnit? a b c d = some n) (leading : isLeading n) (rest : Spells content cs)
    (alone : ¬ ContinuesPair cs) : Spells none ('\\' :: 'u' :: a :: b :: c :: d :: cs)

private theorem scanText_plain {c : Char} (hq : c ≠ '"') (hb : c ≠ '\\') (hc : ¬ c.toNat < 0x20)
    (pending : Option Nat) (cs : List Char) :
    scanText pending (c :: cs) = ((scanText none cs).push c).loneIf pending.isSome := by
  rw [scanText, if_neg hc]
  all_goals simp_all

private theorem scanText_short {escape c : Char} (h : shortEscape? escape = some c)
    (pending : Option Nat) (cs : List Char) :
    scanText pending ('\\' :: escape :: cs) =
      ((scanText none cs).push c).loneIf pending.isSome := by
  have hu : escape ≠ 'u' := by
    rintro rfl
    cases h
  rw [scanText, h]
  · intro a b d e rest he
    exact absurd he hu
  · exact hu

private theorem scanText_unit {a b c d : Char} {n : Nat} (h : hexUnit? a b c d = some n)
    (cs : List Char) :
    scanText none ('\\' :: 'u' :: a :: b :: c :: d :: cs) =
      if isTrailing n then (scanText none cs).lone
      else if isLeading n then scanText (some n) cs
      else (scanText none cs).push (Char.ofNat n) := by
  rw [scanText.eq_def]
  simp only [h]

private theorem scanText_some_unit {a b c d : Char} {n : Nat} (h : hexUnit? a b c d = some n)
    (leading : Nat) (cs : List Char) :
    scanText (some leading) ('\\' :: 'u' :: a :: b :: c :: d :: cs) =
      if isTrailing n then (scanText none cs).push (pairChar leading n)
      else if isLeading n then (scanText (some n) cs).lone
      else ((scanText none cs).push (Char.ofNat n)).lone := by
  rw [scanText.eq_def]
  simp only [h]

private theorem isTrailing_of_isLeading {n : Nat} (h : isLeading n) : isTrailing n = false := by
  unfold isLeading at h
  unfold isTrailing
  grind

/-- A text is read up to its closing quote. Behind the first half of a surrogate pair that it does
not complete it has no content. -/
theorem Spells.scanText_eq {content : Option (List Char)} {cs : List Char} (h : Spells content cs)
    (rest : List Char) : scanText none (cs ++ '"' :: rest) = .closed content rest ∧
      (¬ ContinuesPair cs → ∀ leading,
        scanText (some leading) (cs ++ '"' :: rest) = .closed none rest) := by
  induction h with
  | nil => exact ⟨rfl, fun _ _ ↦ rfl⟩
  | plain quote escape control _ ih =>
    simp only [List.cons_append, scanText_plain quote escape control, ih.1]
    exact ⟨rfl, fun _ _ ↦ rfl⟩
  | short short_eq _ ih =>
    simp only [List.cons_append, scanText_short short_eq, ih.1]
    exact ⟨rfl, fun _ _ ↦ rfl⟩
  | unit unit_eq leading trailing _ ih =>
    simp only [List.cons_append, scanText_unit unit_eq, scanText_some_unit unit_eq, ih.1, leading,
      trailing]
    exact ⟨rfl, fun _ _ ↦ rfl⟩
  | pair first_eq leading second_eq trailing _ ih =>
    simp only [List.cons_append, scanText_unit first_eq, scanText_some_unit first_eq,
      scanText_some_unit second_eq, ih.1, leading, trailing, isTrailing_of_isLeading leading]
    exact ⟨rfl, fun _ _ ↦ rfl⟩
  | loneTrailing unit_eq trailing _ ih =>
    simp only [List.cons_append, scanText_unit unit_eq, ih.1, trailing]
    exact ⟨rfl, fun hc ↦ absurd ⟨_, _, _, _, _, _, rfl, unit_eq, trailing⟩ hc⟩
  | loneLeading unit_eq leading _ alone ih =>
    simp only [List.cons_append, scanText_unit unit_eq, scanText_some_unit unit_eq, ih.2 alone,
      leading, isTrailing_of_isLeading leading]
    exact ⟨rfl, fun _ _ ↦ rfl⟩

private theorem Spells.tokens_eq {content : Option (List Char)} {cs : List Char}
    (h : Spells content cs) (rest : List Char) :
    tokens ('"' :: (cs ++ '"' :: rest)) = .text (content.map String.ofList) :: tokens rest := by
  have hlex : lexeme '"' (cs ++ '"' :: rest) = (.text (content.map String.ofList), rest) := by
    change textLexeme (cs ++ '"' :: rest) = _
    rw [textLexeme, (h.scanText_eq rest).1]
  rw [tokens_cons rfl, hlex]

private theorem hexUnit?_control {n : Nat} (h : n < 0x20) :
    hexUnit? '0' '0' (Nat.digitChar (n / 16)) (Nat.digitChar (n % 16)) = some n := by
  decide +revert

private theorem Spells.escapeChar {content : Option (List Char)} {cs : List Char}
    (h : Spells content cs) (c : Char) : Spells (content.map (c :: ·)) (escapeChar c ++ cs) := by
  have hcode {n : Nat} (hn : c.toNat = n) : Char.ofNat n = c := by rw [← hn, Char.ofNat_toNat]
  unfold Json.escapeChar
  split
  · next hc => exact .short (by rw [hc]; rfl) h
  split
  · next hc => exact .short (by rw [hc]; rfl) h
  split
  · next hc => exact .short (by rw [← hcode hc]; rfl) h
  split
  · next hc => exact .short (by rw [← hcode hc]; rfl) h
  split
  · next hc => exact .short (by rw [hc]; rfl) h
  split
  · next hc => exact .short (by rw [hc]; rfl) h
  split
  · next hc => exact .short (by rw [hc]; rfl) h
  split
  · next hc =>
    have hleading : isLeading c.toNat = false := by simp [isLeading]; omega
    have htrailing : isTrailing c.toNat = false := by simp [isTrailing]; omega
    have hunit := Spells.unit (hexUnit?_control hc) hleading htrailing h
    rwa [Char.ofNat_toNat] at hunit
  · exact .plain (by assumption) (by assumption) (by assumption) h

/-- An escaped text stands for the text. -/
theorem spells_flatMap_escapeChar (content : List Char) :
    Spells (some content) (content.flatMap escapeChar) := by
  induction content with
  | nil => exact .nil
  | cons c content ih => exact ih.escapeChar c

/-! ### Numbers -/

/-- Whether a text starts with a digit. -/
def startsDigit (cs : List Char) : Bool := cs.head?.any Char.isDigit

/-- Whether what follows a number cannot be taken for more of it. -/
def endsNumber : List Char → Bool
  | [] => true
  | c :: _ => !c.isDigit && c != '.' && c != 'e' && c != 'E'

/-- Digits, at least one. -/
def IsDigits (cs : List Char) : Prop := cs ≠ [] ∧ ∀ c ∈ cs, c.isDigit

/-- The digits behind a point, if there is one. -/
inductive SpellsFraction : List Char → List Char → Prop where
  | absent : SpellsFraction [] []
  | present {digits : List Char} (isDigits : IsDigits digits) :
    SpellsFraction digits ('.' :: digits)

/-- An exponent with or without sign, if there is one. -/
inductive SpellsExponent : Option (Bool × List Char) → List Char → Prop where
  | absent : SpellsExponent none []
  | unsigned {mark : Char} {digits : List Char} (mark_eq : mark = 'e' ∨ mark = 'E')
    (isDigits : IsDigits digits) : SpellsExponent (some (false, digits)) (mark :: digits)
  | above {mark : Char} {digits : List Char} (mark_eq : mark = 'e' ∨ mark = 'E')
    (isDigits : IsDigits digits) : SpellsExponent (some (false, digits)) (mark :: '+' :: digits)
  | below {mark : Char} {digits : List Char} (mark_eq : mark = 'e' ∨ mark = 'E')
    (isDigits : IsDigits digits) : SpellsExponent (some (true, digits)) (mark :: '-' :: digits)

/-- How a numeral is written behind its sign. Of several digits before the point the first is not
zero. -/
structure Numeral.Unsigned (n : Numeral) (cs : List Char) : Prop where
  isDigits : IsDigits n.whole
  zero : n.whole.head? = some '0' → n.whole = ['0']
  parts : ∃ fs es, SpellsFraction n.fraction fs ∧ SpellsExponent n.exponent es ∧
    cs = n.whole ++ (fs ++ es)

private theorem IsDigits.startsDigit_append {digits : List Char} (h : IsDigits digits)
    (rest : List Char) :
    startsDigit (digits ++ rest) := by
  cases digits with
  | nil => exact absurd rfl h.1
  | cons c digits => exact h.2 c List.mem_cons_self

private theorem spanDigits_append {digits rest : List Char} (hd : IsDigits digits)
    (hr : startsDigit rest = false) : spanDigits (digits ++ rest) = (digits, rest) := by
  have hrest : rest.takeWhile Char.isDigit = [] ∧ rest.dropWhile Char.isDigit = rest := by
    cases rest with
    | nil => exact ⟨rfl, rfl⟩
    | cons c rest =>
      have hc : c.isDigit = false := hr
      simp [hc]
  rw [spanDigits, List.takeWhile_append_of_pos hd.2, List.dropWhile_append_of_pos hd.2, hrest.1,
    hrest.2, List.append_nil]

section numbers

variable {fraction fs es rest : List Char} {exponent : Option (Bool × List Char)}

private theorem IsDigits.scanPower_eq {digits : List Char} (hd : IsDigits digits)
    (hr : endsNumber rest) (n : Numeral) (below : Bool) : scanPower n below (digits ++ rest) =
      .closed { n with exponent := some (below, digits) } rest := by
  have hstart : startsDigit rest = false := by
    cases rest with
    | nil => rfl
    | cons c rest =>
      simp only [endsNumber, Bool.and_eq_true, Bool.not_eq_true'] at hr
      exact hr.1.1.1
  unfold scanPower
  rw [spanDigits_append hd hstart]
  split
  · next h => exact absurd (congrArg Prod.fst h) hd.1
  · next h =>
    cases h
    rfl

private theorem SpellsExponent.scanExponent_eq (h : SpellsExponent exponent es)
    (hr : endsNumber rest) (negative : Bool) (whole fraction : List Char) :
    scanExponent ⟨negative, whole, fraction, none⟩ (es ++ rest) =
      .closed ⟨negative, whole, fraction, exponent⟩ rest := by
  cases h with
  | absent =>
    cases rest with
    | nil => rfl
    | cons c rest =>
      simp only [endsNumber, Bool.and_eq_true, bne_iff_ne] at hr
      simp [scanExponent, hr]
  | unsigned mark_eq isDigits =>
    have hsign := isDigits.startsDigit_append rest
    rw [List.cons_append, scanExponent, if_pos mark_eq, isDigits.scanPower_eq hr]
    all_goals
      intro cs he
      rw [he] at hsign
      cases hsign
  | above mark_eq isDigits =>
    rw [List.cons_append, List.cons_append, scanExponent, if_pos mark_eq, isDigits.scanPower_eq hr]
  | below mark_eq isDigits =>
    rw [List.cons_append, List.cons_append, scanExponent, if_pos mark_eq, isDigits.scanPower_eq hr]

private theorem SpellsExponent.ne_of_eq_cons (h : SpellsExponent exponent es) (hr : endsNumber rest)
    {c : Char} {cs : List Char} (he : es ++ rest = c :: cs) : c.isDigit = false ∧ c ≠ '.' := by
  have hmark {mark : Char} (hm : mark = 'e' ∨ mark = 'E') (hc : mark = c) :
      c.isDigit = false ∧ c ≠ '.' := by
    rcases hm with rfl | rfl <;> subst hc <;> decide
  cases h with
  | absent =>
    rw [List.nil_append] at he
    rw [he] at hr
    simp only [endsNumber, Bool.and_eq_true, bne_iff_ne, Bool.not_eq_true'] at hr
    exact hr.1.1
  | unsigned mark_eq | above mark_eq | below mark_eq => exact hmark mark_eq (List.cons.inj he).1

private theorem SpellsExponent.startsDigit_append (h : SpellsExponent exponent es)
    (hr : endsNumber rest) : startsDigit (es ++ rest) = false := by
  cases hcs : es ++ rest with
  | nil => rfl
  | cons c cs => exact (h.ne_of_eq_cons hr hcs).1

private theorem SpellsFraction.scanFraction_eq (hf : SpellsFraction fraction fs)
    (he : SpellsExponent exponent es) (hr : endsNumber rest) (negative : Bool)
    (whole : List Char) : scanFraction ⟨negative, whole, [], none⟩ (fs ++ (es ++ rest)) =
      .closed ⟨negative, whole, fraction, exponent⟩ rest := by
  cases hf with
  | absent =>
    rw [List.nil_append, scanFraction, he.scanExponent_eq hr]
    intro cs hcs
    exact (he.ne_of_eq_cons hr hcs).2 rfl
  | present isDigits =>
    rw [List.cons_append, scanFraction, spanDigits_append isDigits (he.startsDigit_append hr)]
    split
    · next hd => exact absurd (congrArg Prod.fst hd) isDigits.1
    · next hd =>
      cases hd
      exact he.scanExponent_eq hr negative whole fraction

private theorem Numeral.Unsigned.scanNumber_eq {n : Numeral} {cs : List Char} (h : n.Unsigned cs)
    (hr : endsNumber rest) : scanNumber n.negative (cs ++ rest) = .closed n rest := by
  obtain ⟨negative, whole, fraction, exponent⟩ := n
  obtain ⟨isDigits, zero, fs, es, hf, he, rfl⟩ := h
  have hstart : startsDigit (fs ++ (es ++ rest)) = false := by
    cases hf with
    | absent => exact he.startsDigit_append hr
    | present => rfl
  unfold scanNumber
  rw [List.append_assoc, List.append_assoc, spanDigits_append isDigits hstart]
  split
  · next hd => exact absurd (congrArg Prod.fst hd) isDigits.1
  · next hd =>
    have hwhole : whole = '0' :: _ := congrArg Prod.fst hd
    rw [hwhole] at zero
    cases zero rfl
  · next hd =>
    cases hd
    exact hf.scanFraction_eq he hr negative whole

end numbers

private theorem ne_of_isDigit {c d : Char} (hc : c.isDigit) (hd : d.isDigit = false) : c ≠ d := by
  rintro rfl
  rw [hc] at hd
  cases hd

private theorem lexeme_of_isDigit {c : Char} (h : c.isDigit) (cs : List Char) :
    lexeme c cs = numberLexeme false (c :: cs) := by
  have hne {d : Char} (hd : d.isDigit = false) : c ≠ d := ne_of_isDigit h hd
  have hp : punctuation? c = none := by
    simp [punctuation?, hne]
  have hl : literal? c = none := by
    simp [literal?, hne]
  rw [lexeme, hp, hl]
  simp [hne, h]

private theorem Numeral.Unsigned.tokens_eq {n : Numeral} {cs rest : List Char} (h : n.Unsigned cs)
    (hr : endsNumber rest) :
    tokens ((if n.negative then ['-'] else []) ++ (cs ++ rest)) = .number n :: tokens rest := by
  have hscan := h.scanNumber_eq hr
  cases hn : n.negative with
  | true =>
    rw [hn] at hscan
    have hlex : lexeme '-' (cs ++ rest) = (.number n, rest) := by
      change numberLexeme true (cs ++ rest) = _
      rw [numberLexeme, hscan]
    change tokens ('-' :: (cs ++ rest)) = _
    rw [tokens_cons rfl, hlex]
  | false =>
    rw [hn] at hscan
    obtain ⟨c, more, hcs, hc⟩ : ∃ c more, cs ++ rest = c :: more ∧ c.isDigit := by
      obtain ⟨isDigits, -, fs, es, -, -, rfl⟩ := h
      cases hw : n.whole with
      | nil => exact absurd hw isDigits.1
      | cons c whole => exact ⟨c, _, rfl, isDigits.2 c (hw ▸ List.mem_cons_self)⟩
    have hgap : isGap c = false := by
      simp [isGap, ne_of_isDigit hc]
    change tokens (cs ++ rest) = _
    rw [hcs] at hscan ⊢
    rw [tokens_cons hgap, lexeme_of_isDigit hc, numberLexeme, hscan]

/-! ### Natural numbers -/

/-- The numeral of a natural number. -/
def naturalNumeral (n : Nat) : Numeral := ⟨false, Nat.toDigits 10 n, [], none⟩

private theorem head?_toDigits_ne {n : Nat} (h : n ≠ 0) : (Nat.toDigits 10 n).head? ≠ some '0' := by
  induction n using Nat.strongRecOn with
  | ind n ih =>
    by_cases hn : n < 10
    · have hsmall : ∀ d < 10, d ≠ 0 → [Nat.digitChar d].head? ≠ some '0' := by decide
      rw [Nat.toDigits_of_lt_base hn]
      exact hsmall n hn h
    · have hfirst := ih (n / 10) (by omega) (by omega)
      rw [Nat.toDigits_of_base_le (by decide) (Nat.not_lt.mp hn), List.head?_append]
      cases hd : Nat.toDigits 10 (n / 10) with
      | nil => exact absurd hd Nat.toDigits_ne_nil
      | cons c digits => rwa [hd] at hfirst

private theorem absorb_append {n m : Nat} {digits : List Char} (h : absorb n digits = (m, []))
    (more : List Char) : absorb n (digits ++ more) = absorb m more := by
  induction digits generalizing n with
  | nil =>
    cases h
    rfl
  | cons c digits ih =>
    rw [absorb] at h
    rw [List.cons_append, absorb]
    split at h
    · next hc => rw [if_pos hc, ih h]
    · cases h

/-- The digits of a number that fits are read as the number. -/
theorem absorb_toDigits {n : Nat} (h : n < Nat.pow 2 64) :
    absorb 0 (Nat.toDigits 10 n) = (n, []) := by
  have hdigit {d : Nat} (hd : d < 10) : digitValue (Nat.digitChar d) = d := by
    decide +revert
  induction n using Nat.strongRecOn with
  | ind n ih =>
    by_cases hn : n < 10
    · rw [Nat.toDigits_of_lt_base hn, absorb, hdigit hn, if_pos (by omega), absorb]
      simp
    · have hlast : 10 * (n / 10) + n % 10 = n := Nat.div_add_mod n 10
      rw [Nat.toDigits_of_base_le (by decide) (Nat.not_lt.mp hn),
        absorb_append (ih (n / 10) (by omega) (by omega)), absorb, hdigit (by omega), hlast,
        if_pos h, absorb]

/-- The numeral of a natural number that fits has the number as its value. -/
theorem value_naturalNumeral {n : Nat} (h : n < Nat.pow 2 64) :
    (naturalNumeral n).value = some (.integer n) := by
  simp [naturalNumeral, Numeral.value, absorb_toDigits h]

/-- A natural number is written by its digits. -/
theorem unsigned_naturalNumeral (n : Nat) :
    (naturalNumeral n).Unsigned (Number.integer n).text.toList where
  isDigits := ⟨Nat.toDigits_ne_nil, fun _ hc ↦
    Nat.isDigit_of_mem_toDigits (by decide) (by decide) hc⟩
  zero := by
    intro hzero
    by_cases hn : n = 0
    · rw [hn]
      rfl
    · exact absurd hzero (head?_toDigits_ne hn)
  parts := by
    refine ⟨[], [], .absent, .absent, ?_⟩
    rw [List.append_nil, List.append_nil]
    exact congrArg String.toList Nat.repr_eq_ofList_toDigits |>.trans String.toList_ofList

/-! ### Whole texts -/

/-- The ways to write a token. -/
inductive Token.Spelled : Token → List Char → Prop where
  | openList : Spelled .openList ['[']
  | closeList : Spelled .closeList [']']
  | openObject : Spelled .openObject ['\x7b']
  | closeObject : Spelled .closeObject ['\x7d']
  | comma : Spelled .comma [',']
  | colon : Spelled .colon [':']
  | null : Spelled .null ['n', 'u', 'l', 'l']
  | true : Spelled (.bool true) ['t', 'r', 'u', 'e']
  | false : Spelled (.bool false) ['f', 'a', 'l', 's', 'e']
  | number {n : Numeral} {cs : List Char} (unsigned : n.Unsigned cs) :
    Spelled (.number n) ((if n.negative then ['-'] else []) ++ cs)
  | text {content : Option (List Char)} {cs : List Char} (spells : Spells content cs) :
    Spelled (.text (content.map String.ofList)) ('"' :: (cs ++ ['"']))

/-- Whether a text may follow a token: a number has to be over. -/
def Token.Ends : Token → List Char → Prop
  | .number _, rest => endsNumber rest
  | _, _ => True

/-- The ways to write tokens one after the other, with any blanks before, between and behind. -/
inductive Lexes : List Char → List Token → Prop where
  | nil {gap : List Char} (blanks : ∀ c ∈ gap, isGap c) : Lexes gap []
  | cons {gap cs rest : List Char} {token : Token} {tokens : List Token}
    (blanks : ∀ c ∈ gap, isGap c) (spelled : token.Spelled cs) (ends : token.Ends rest)
    (others : Lexes rest tokens) : Lexes (gap ++ (cs ++ rest)) (token :: tokens)

private theorem Token.Spelled.tokens_eq {token : Token} {cs rest : List Char} (h : token.Spelled cs)
    (hr : token.Ends rest) : tokens (cs ++ rest) = token :: tokens rest := by
  cases h with
  | openList | closeList | openObject | closeObject | comma | colon =>
    exact tokens_punctuation rfl rest
  | null | true | false => exact tokens_cons rfl _
  | number unsigned =>
    rw [List.append_assoc]
    exact unsigned.tokens_eq hr
  | text spells =>
    rw [List.cons_append, List.append_assoc]
    exact spells.tokens_eq rest

/-- The tokens of a text are those that it was written with. -/
theorem Lexes.tokens_eq {text : List Char} {ts : List Token} (h : Lexes text ts) :
    tokens text = ts := by
  induction h with
  | nil blanks => exact tokens_gap blanks
  | cons blanks spelled ends _ ih => rw [tokens_gap_append blanks, spelled.tokens_eq ends, ih]

end Blockwright.Json
