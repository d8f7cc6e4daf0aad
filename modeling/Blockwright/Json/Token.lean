import Blockwright.Json.Number

/-!
# Tokens of a document

The text of a document is cut into brackets, separators, literal words, numerals and texts.
A token that is not well formed is the last one; it remembers how it fails, which depends on
whether its value would be read or only skipped.
-/

namespace Blockwright.Json

/-- Why a document is not well formed. -/
inductive Fault where
  /-- The text ends too early. -/
  | endOfText
  /-- Something stands where it may not stand. -/
  | malformed
  deriving DecidableEq, Repr

/-- How a token fails when its value is read, and when its value is skipped. -/
structure Breach where
  whenRead : Fault
  whenSkipped : Fault
  deriving DecidableEq, Repr

namespace Breach

/-- The text ends too early, however it is read. -/
def cut : Breach := ⟨.endOfText, .endOfText⟩

/-- Something stands where it may not stand, however it is read. -/
def misplaced : Breach := ⟨.malformed, .malformed⟩

/-- A number that the end of the text cuts off: only a reader of its value sees the end. -/
def cutNumber : Breach := ⟨.endOfText, .malformed⟩

end Breach

/-- The pieces of a document. -/
inductive Token where
  | openList | closeList | openObject | closeObject | comma | colon
  /-- The word `null`. -/
  | null
  /-- The word `true` or `false`. -/
  | bool (value : Bool)
  /-- A number. -/
  | number (numeral : Numeral)
  /-- A text; it has no content when one of its escapes is half of a surrogate pair. -/
  | text (content : Option String)
  /-- A text that is not well formed. -/
  | brokenText (breach : Breach)
  /-- Anything else that is not well formed. -/
  | broken (breach : Breach)
  deriving DecidableEq, Repr

/-! ### Texts -/

/-- The outcome of reading a text up to its closing quote. -/
inductive TextScan where
  /-- The text is closed; `rest` follows its quote. -/
  | closed (content : Option (List Char)) (rest : List Char)
  /-- The text is not well formed. -/
  | broken (breach : Breach)
  deriving DecidableEq, Repr

namespace TextScan

/-- Puts a character in front. -/
def push (c : Char) : TextScan → TextScan
  | closed content rest => closed (content.map (c :: ·)) rest
  | broken breach => broken breach

/-- Puts half of a surrogate pair in front, which has no content to be read. -/
def lone : TextScan → TextScan
  | closed _ rest => closed none rest
  | broken breach => broken ⟨.malformed, breach.whenSkipped⟩

/-- Puts half of a surrogate pair in front if there is one. -/
def loneIf (isLone : Bool) (t : TextScan) : TextScan := if isLone then t.lone else t

/-- The text after the closing quote, or nothing. -/
def rest : TextScan → List Char
  | closed _ rest => rest
  | broken _ => []

@[simp] private theorem rest_closed (content : Option (List Char)) (cs : List Char) :
    (closed content cs).rest = cs := rfl

@[simp] private theorem rest_broken (breach : Breach) : (broken breach).rest = [] := rfl

@[simp] private theorem rest_push (c : Char) (t : TextScan) : (t.push c).rest = t.rest := by
  cases t <;> rfl

@[simp] private theorem rest_lone (t : TextScan) : t.lone.rest = t.rest := by
  cases t <;> rfl

@[simp] private theorem rest_loneIf (isLone : Bool) (t : TextScan) :
    (t.loneIf isLone).rest = t.rest := by
  cases isLone <;> simp [loneIf]

end TextScan

/-- The value of a hexadecimal digit. -/
def hexDigit? (c : Char) : Option Nat :=
  if '0' ≤ c ∧ c ≤ '9' then some (c.toNat - '0'.toNat)
  else if 'a' ≤ c ∧ c ≤ 'f' then some (c.toNat - 'a'.toNat + 10)
  else if 'A' ≤ c ∧ c ≤ 'F' then some (c.toNat - 'A'.toNat + 10)
  else none

/-- The value of four hexadecimal digits. -/
def hexUnit? (a b c d : Char) : Option Nat := do
  return (((← hexDigit? a) * 16 + (← hexDigit? b)) * 16 + (← hexDigit? c)) * 16 +
    (← hexDigit? d)

/-- The character that a short escape stands for. -/
def shortEscape? (c : Char) : Option Char :=
  if c = '"' ∨ c = '\\' ∨ c = '/' then some c
  else if c = 'b' then some (Char.ofNat 0x8)
  else if c = 'f' then some (Char.ofNat 0xC)
  else if c = 'n' then some '\n'
  else if c = 'r' then some '\r'
  else if c = 't' then some '\t'
  else none

/-- Whether a unit is the first half of a surrogate pair. -/
def isLeading (n : Nat) : Bool := 0xD800 ≤ n && n ≤ 0xDBFF

/-- Whether a unit is the second half of a surrogate pair. -/
def isTrailing (n : Nat) : Bool := 0xDC00 ≤ n && n ≤ 0xDFFF

/-- The character of a surrogate pair. -/
def pairChar (leading trailing : Nat) : Char :=
  Char.ofNat ((leading - 0xD800) * 0x400 + (trailing - 0xDC00) + 0x10000)

/-- How an escape fails that has fewer than four characters left for its digits: it is cut off
if fewer than four bytes are left. -/
def shortHex (left : List Char) : Breach :=
  if (String.ofList left).utf8ByteSize < 4 then .cut else .misplaced

/-- Reads a text from behind its opening quote. `pending` is the first half of a surrogate pair
that stands directly before; unless its second half comes next, it has no content. -/
def scanText (pending : Option Nat) : List Char → TextScan
  | [] => .broken .cut
  | '"' :: cs => (TextScan.closed (some []) cs).loneIf pending.isSome
  | '\\' :: 'u' :: a :: b :: c :: d :: cs =>
    match hexUnit? a b c d, pending with
    | none, _ => .broken .misplaced
    | some unit, some leading =>
      if isTrailing unit then (scanText none cs).push (pairChar leading unit)
      else if isLeading unit then (scanText (some unit) cs).lone
      else ((scanText none cs).push (Char.ofNat unit)).lone
    | some unit, none =>
      if isTrailing unit then (scanText none cs).lone
      else if isLeading unit then scanText (some unit) cs
      else (scanText none cs).push (Char.ofNat unit)
  | '\\' :: 'u' :: cs => .broken (shortHex cs)
  | ['\\'] => .broken .cut
  | '\\' :: c :: cs =>
    match shortEscape? c with
    | some d => ((scanText none cs).push d).loneIf pending.isSome
    | none => .broken .misplaced
  | c :: cs =>
    if c.toNat < 0x20 then .broken .misplaced
    else ((scanText none cs).push c).loneIf pending.isSome
termination_by structural cs => cs

private theorem length_rest_scanText (pending : Option Nat) (cs : List Char) :
    (scanText pending cs).rest.length ≤ cs.length := by
  fun_induction scanText pending cs <;> simp_all <;> omega

/-! ### Numerals -/

/-- The outcome of reading a numeral. -/
inductive NumberScan where
  | closed (numeral : Numeral) (rest : List Char)
  | broken (breach : Breach)
  deriving DecidableEq, Repr

/-- The digits that a text starts with, and what follows them. -/
def spanDigits (cs : List Char) : List Char × List Char :=
  (cs.takeWhile Char.isDigit, cs.dropWhile Char.isDigit)

/-- What a missing digit means: the number is cut off only at the end of the text. -/
def missingDigit (cs : List Char) : Breach := if cs.isEmpty then .cutNumber else .misplaced

/-- Reads the digits of an exponent. -/
def scanPower (n : Numeral) (below : Bool) (cs : List Char) : NumberScan :=
  match spanDigits cs with
  | ([], _) => .broken (missingDigit cs)
  | (digits, rest) => .closed { n with exponent := some (below, digits) } rest

/-- Reads an exponent if one follows. -/
def scanExponent (n : Numeral) : List Char → NumberScan
  | [] => .closed n []
  | c :: cs =>
    if c = 'e' ∨ c = 'E' then
      match cs with
      | '+' :: cs => scanPower n false cs
      | '-' :: cs => scanPower n true cs
      | cs => scanPower n false cs
    else .closed n (c :: cs)

/-- Reads a fraction if one follows, and then an exponent. -/
def scanFraction (n : Numeral) : List Char → NumberScan
  | '.' :: cs =>
    match spanDigits cs with
    | ([], _) => .broken (missingDigit cs)
    | (digits, rest) => scanExponent { n with fraction := digits } rest
  | cs => scanExponent n cs

/-- Reads a number from behind its sign. A number of several digits does not start with zero. -/
def scanNumber (negative : Bool) (cs : List Char) : NumberScan :=
  match spanDigits cs with
  | ([], _) => .broken (missingDigit cs)
  | ('0' :: _ :: _, _) => .broken .misplaced
  | (digits, rest) => scanFraction ⟨negative, digits, [], none⟩ rest

/-- The text after a numeral, or nothing. -/
def NumberScan.rest : NumberScan → List Char
  | closed _ rest => rest
  | broken _ => []

private theorem length_spanDigits (cs : List Char) : (spanDigits cs).2.length ≤ cs.length :=
  (List.dropWhile_sublist _).length_le

private theorem length_rest_scanPower (n : Numeral) (below : Bool) (cs : List Char) :
    (scanPower n below cs).rest.length ≤ cs.length := by
  have h := length_spanDigits cs
  unfold scanPower
  split
  · simp [NumberScan.rest]
  · next heq =>
    rw [heq] at h
    exact h

private theorem length_rest_scanExponent (n : Numeral) (cs : List Char) :
    (scanExponent n cs).rest.length ≤ cs.length := by
  cases cs with
  | nil => simp [scanExponent, NumberScan.rest]
  | cons c cs =>
    simp only [scanExponent]
    split
    · split
      · have := length_rest_scanPower n false ‹List Char›
        simp only [List.length_cons]
        omega
      · have := length_rest_scanPower n true ‹List Char›
        simp only [List.length_cons]
        omega
      · have := length_rest_scanPower n false cs
        simp only [List.length_cons]
        omega
    · simp [NumberScan.rest]

private theorem length_rest_scanFraction (n : Numeral) (cs : List Char) :
    (scanFraction n cs).rest.length ≤ cs.length := by
  unfold scanFraction
  split
  · next cs =>
    have h := length_spanDigits cs
    split
    · simp [NumberScan.rest]
    · next digits rest _ heq =>
      rw [heq] at h
      have := length_rest_scanExponent { n with fraction := digits } rest
      simp only [List.length_cons]
      exact Nat.le_succ_of_le (Nat.le_trans this h)
  · exact length_rest_scanExponent n cs

private theorem length_rest_scanNumber (negative : Bool) (cs : List Char) :
    (scanNumber negative cs).rest.length ≤ (spanDigits cs).2.length := by
  unfold scanNumber
  split
  · simp [NumberScan.rest]
  · simp [NumberScan.rest]
  · next digits rest _ _ heq =>
    rw [heq]
    exact length_rest_scanFraction ⟨negative, digits, [], none⟩ rest

/-! ### Words and whole documents -/

/-- Reads the rest of a literal word. -/
def scanWord : (word cs : List Char) → Except Breach (List Char)
  | [], cs => .ok cs
  | _ :: _, [] => .error .cut
  | w :: word, c :: cs => if c = w then scanWord word cs else .error .misplaced

private theorem length_of_scanWord {word cs rest : List Char} (h : scanWord word cs = .ok rest) :
    rest.length ≤ cs.length := by
  fun_induction scanWord word cs <;> simp_all
  omega

/-- A token and the text that follows it; nothing follows a token that is not well formed. -/
abbrev Lexeme := Token × List Char

/-- The lexeme of a literal word. -/
def wordLexeme (token : Token) (word cs : List Char) : Lexeme :=
  match scanWord word cs with
  | .ok rest => (token, rest)
  | .error breach => (.broken breach, [])

/-- The lexeme of a number. -/
def numberLexeme (negative : Bool) (cs : List Char) : Lexeme :=
  match scanNumber negative cs with
  | .closed numeral rest => (.number numeral, rest)
  | .broken breach => (.broken breach, [])

/-- The lexeme of a text. -/
def textLexeme (cs : List Char) : Lexeme :=
  match scanText none cs with
  | .closed content rest => (.text (content.map String.ofList), rest)
  | .broken breach => (.brokenText breach, [])

/-- The brackets and separators. -/
def punctuation? (c : Char) : Option Token :=
  if c = '[' then some .openList
  else if c = ']' then some .closeList
  else if c = '\x7b' then some .openObject
  else if c = '\x7d' then some .closeObject
  else if c = ',' then some .comma
  else if c = ':' then some .colon
  else none

/-- The literal words by their first letter: the token and the letters that have to follow. -/
def literal? (c : Char) : Option (Token × List Char) :=
  if c = 'n' then some (.null, ['u', 'l', 'l'])
  else if c = 't' then some (.bool true, ['r', 'u', 'e'])
  else if c = 'f' then some (.bool false, ['a', 'l', 's', 'e'])
  else none

/-- The lexeme that starts with a character. -/
def lexeme (c : Char) (cs : List Char) : Lexeme :=
  match punctuation? c, literal? c with
  | some token, _ => (token, cs)
  | none, some (token, word) => wordLexeme token word cs
  | none, none =>
    if c = '"' then textLexeme cs
    else if c = '-' then numberLexeme true cs
    else if c.isDigit then numberLexeme false (c :: cs)
    else (.broken .misplaced, [])

private theorem length_wordLexeme (token : Token) (word cs : List Char) :
    (wordLexeme token word cs).2.length ≤ cs.length := by
  unfold wordLexeme
  split
  · next h => exact length_of_scanWord h
  · simp

private theorem length_numberLexeme (negative : Bool) (cs : List Char) :
    (numberLexeme negative cs).2.length ≤ (spanDigits cs).2.length := by
  have h := length_rest_scanNumber negative cs
  unfold numberLexeme
  split
  · next heq =>
    rw [heq] at h
    exact h
  · simp

private theorem length_textLexeme (cs : List Char) : (textLexeme cs).2.length ≤ cs.length := by
  have h := length_rest_scanText none cs
  unfold textLexeme
  split
  · next heq =>
    rw [heq] at h
    exact h
  · simp

private theorem length_lexeme (c : Char) (cs : List Char) :
    (lexeme c cs).2.length ≤ cs.length := by
  unfold lexeme
  split
  · exact Nat.le_refl _
  · exact length_wordLexeme _ _ _
  · split
    · exact length_textLexeme _
    · split
      · exact Nat.le_trans (length_numberLexeme _ _) (length_spanDigits _)
      · split
        · next h =>
          have hs : (spanDigits (c :: cs)).2 = (spanDigits cs).2 := by
            simp [spanDigits, h]
          exact Nat.le_trans (length_numberLexeme _ _) (hs ▸ length_spanDigits cs)
        · simp

/-- The blanks between tokens: space, tab, line feed and carriage return. -/
def isGap (c : Char) : Bool := c == ' ' || c == '\t' || c == '\n' || c == '\r'

/-- The tokens of a document, up to and including the first one that is not well formed. -/
def tokens (cs : List Char) : List Token :=
  match _h : cs.dropWhile isGap with
  | [] => []
  | c :: rest => (lexeme c rest).1 :: tokens (lexeme c rest).2
termination_by cs.length
decreasing_by
  have hs : (cs.dropWhile isGap).length ≤ cs.length := (List.dropWhile_sublist _).length_le
  have hl := length_lexeme c rest
  rw [_h, List.length_cons] at hs
  omega

end Blockwright.Json
