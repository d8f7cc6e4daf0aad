import Blockwright.Literal
import Blockwright.Proofs.Grammar

/-!
# What literals keep of their texts

A text that is no colour's name stands for a number, a truth value, a colour in hexadecimal digits
or a text, and the tests for these exclude each other. So they may be tried in any order, and it
matters only which of them are tried before the names of colours. Of the text itself a literal
forgets nothing but the case of the letters in truth values and hexadecimal digits.
-/

namespace Blockwright.Literal

open Blockwright.Text

/-! ### Upper and lower case -/

private theorem toNat_upperAscii (c : Char) : (upperAscii c).toNat =
    if 97 ≤ c.toNat ∧ c.toNat ≤ 122 then c.toNat - 32 else c.toNat := by
  have hr : ('a' ≤ c ∧ c ≤ 'z') ↔ 97 ≤ c.toNat ∧ c.toNat ≤ 122 := by
    simp [Char.le_def, UInt32.le_iff_toNat_le]
  simp only [upperAscii, hr]
  split
  · rw [Char.ofNat, dif_pos (.inl (by omega))]
    rfl
  · rfl

private theorem upperAscii_eq_iff {c d : Char} :
    upperAscii c = upperAscii d ↔ lowerAscii c = lowerAscii d := by
  rw [← Char.toNat_inj, ← Char.toNat_inj, toNat_upperAscii, toNat_upperAscii,
    Script.toNat_lowerAscii, Script.toNat_lowerAscii]
  split_ifs <;> omega

private theorem isDigit_lowerAscii (c : Char) : (lowerAscii c).isDigit = c.isDigit := by
  have hzero : '0'.toNat = 48 := rfl
  have hnine : '9'.toNat = 57 := rfl
  rw [Bool.eq_iff_iff, Char.isDigit_iff_toNat, Char.isDigit_iff_toNat, Script.toNat_lowerAscii]
  split <;> omega

/-- Two texts are the same in upper case exactly if they agree up to the case of letters. -/
theorem map_upperAscii_eq_iff {cs ds : List Char} :
    cs.map upperAscii = ds.map upperAscii ↔ sameLetters cs ds := by
  rw [sameLetters, beq_iff_eq]
  induction cs generalizing ds with
  | nil => simp
  | cons c cs ih =>
    cases ds with
    | nil => simp
    | cons d ds => simp [ih, upperAscii_eq_iff]

/-! ### Colours in hexadecimal digits -/

/-- A `#` with six hexadecimal digits behind it. -/
def IsHexColor (value : String) : Prop :=
  ∃ digits, value.toList = '#' :: digits ∧ digits.length = 6 ∧ ∀ c ∈ digits, isHexDigit c

/-- The colour of some hexadecimal digits has them in upper case. -/
theorem hexColor?_eq_some_iff {value argb : String} : hexColor? value = some argb ↔
    ∃ digits, value.toList = '#' :: digits ∧ (digits.length = 6 ∧ ∀ c ∈ digits, isHexDigit c) ∧
      argb = "&HFF" ++ String.ofList (digits.map upperAscii) := by
  unfold hexColor?
  split
  · next digits hd =>
    simp [hd, eq_comm (a := argb)]
  · next hd =>
    constructor
    · intro h
      cases h
    · rintro ⟨digits, h, -⟩
      exact absurd h (hd digits)

/-- The texts that have a colour are those that spell one. -/
theorem isSome_hexColor? {value : String} : (hexColor? value).isSome ↔ IsHexColor value := by
  rw [Option.isSome_iff_exists]
  constructor
  · rintro ⟨argb, h⟩
    obtain ⟨digits, hd, ⟨hlength, hall⟩, -⟩ := hexColor?_eq_some_iff.mp h
    exact ⟨digits, hd, hlength, hall⟩
  · rintro ⟨digits, hd, hlength, hall⟩
    exact ⟨_, hexColor?_eq_some_iff.mpr ⟨digits, hd, ⟨hlength, hall⟩, rfl⟩⟩

/-- Two spelled colours are the same exactly if their spellings agree up to the case of letters. -/
theorem hexColor?_eq_iff {v w : String} (hv : IsHexColor v) (hw : IsHexColor w) :
    hexColor? v = hexColor? w ↔ sameLetters v.toList w.toList := by
  obtain ⟨first, hf, hfirst⟩ := hv
  obtain ⟨second, hs, hsecond⟩ := hw
  rw [hexColor?_eq_some_iff.mpr ⟨first, hf, hfirst, rfl⟩,
    hexColor?_eq_some_iff.mpr ⟨second, hs, hsecond, rfl⟩, Option.some.injEq,
    String.append_right_inj, String.ofList_inj, map_upperAscii_eq_iff, hf, hs]
  simp [sameLetters]

/-! ### Tests -/

/-- The tests that are made on a text apart from that for the names of colours. -/
inductive Test where
  | number
  | boolean (value : Bool)
  | hexColor
  | text
  deriving DecidableEq, Repr

namespace Test

/-- All tests, in the order in which they are made. -/
def all : List Test := [number, boolean true, boolean false, hexColor, text]

private theorem mem_all (test : Test) : test ∈ all := by
  cases test with
  | boolean value => cases value <;> decide
  | _ => decide

/-- Whether a text is made of digits and not empty. -/
def isNumber (value : String) : Bool := value.toList ≠ [] ∧ value.toList.all Char.isDigit

/-- The word for a truth value. -/
def word : Bool → String
  | true => "true"
  | false => "false"

/-- Whether a test accepts a text; a text is what no other test accepts. -/
def accepts (value : String) : Test → Bool
  | number => isNumber value
  | boolean b => sameLetters value.toList (word b).toList
  | hexColor => (hexColor? value).isSome
  | text => !(isNumber value || sameLetters value.toList (word true).toList ||
      sameLetters value.toList (word false).toList || (hexColor? value).isSome)

/-- What a test makes of a text, if it accepts the text. -/
def read (value : String) (test : Test) : Option Literal :=
  if test.accepts value then
    match test with
    | number => some (.number value)
    | boolean b => some (.boolean b)
    | hexColor => (hexColor? value).map (.color hexColorBlock)
    | text => some (.text value)
  else none

variable {value : String} {first second test : Test}

/-- Whether a test accepts texts that start with a character in lower case. All that no other test
accepts are texts, so for these the start tells nothing. -/
def startsWith : Test → Char → Bool
  | number, c => c.isDigit
  | boolean true, c => c == 't'
  | boolean false, c => c == 'f'
  | hexColor, c => c == '#'
  | text, _ => false

private theorem eq_of_startsWith {c : Char} (h : first.startsWith c) (h' : second.startsWith c) :
    first = second := by
  fun_cases startsWith first c <;> fun_cases startsWith second c <;> simp_all [startsWith]

private theorem exists_startsWith (h : test.accepts value) (ht : test ≠ text) :
    ∃ c cs, value.toList.map lowerAscii = c :: cs ∧ test.startsWith c := by
  cases test with
  | number =>
    cases hv : value.toList with
    | nil => simp [accepts, isNumber, hv] at h
    | cons c cs =>
      have hdigit : c.isDigit := by
        have hall := (of_decide_eq_true h).2
        rw [hv, List.all_cons, Bool.and_eq_true] at hall
        exact hall.1
      exact ⟨_, _, rfl, (isDigit_lowerAscii c).trans hdigit⟩
  | boolean b =>
    have hletters := beq_iff_eq.mp h
    cases b with
    | true => exact ⟨'t', ['r', 'u', 'e'], hletters.trans (by decide), rfl⟩
    | false => exact ⟨'f', ['a', 'l', 's', 'e'], hletters.trans (by decide), rfl⟩
  | hexColor =>
    obtain ⟨digits, hd, -⟩ := isSome_hexColor?.mp h
    exact ⟨'#', digits.map lowerAscii, by rw [hd]; rfl, rfl⟩
  | text => exact absurd rfl ht

private theorem eq_text_of_accepts (h : text.accepts value) (h' : test.accepts value) :
    test = text := by
  simp only [accepts, Bool.not_eq_true', Bool.or_eq_false_iff] at h
  obtain ⟨⟨⟨hnumber, htrue⟩, hfalse⟩, hcolor⟩ := h
  cases test with
  | number => cases hnumber.symm.trans h'
  | boolean b =>
    cases b with
    | true => cases htrue.symm.trans h'
    | false => cases hfalse.symm.trans h'
  | hexColor => cases hcolor.symm.trans h'
  | text => rfl

/-- No two tests accept one text. -/
theorem eq_of_accepts (h : first.accepts value) (h' : second.accepts value) : first = second := by
  by_cases hf : first = text
  · rw [hf, eq_text_of_accepts (hf ▸ h) h']
  by_cases hs : second = text
  · rw [hs, eq_text_of_accepts (hs ▸ h') h]
  obtain ⟨c, cs, he, hc⟩ := exists_startsWith h hf
  obtain ⟨d, ds, he', hd⟩ := exists_startsWith h' hs
  obtain ⟨rfl, -⟩ := List.cons.inj (he.symm.trans he')
  exact eq_of_startsWith hc hd

/-- Some test makes of a text what it stands for. -/
theorem exists_read (value : String) :
    ∃ test : Test, test.read value = some (ofUnnamed value) := by
  unfold ofUnnamed
  split
  · next hn => exact ⟨number, if_pos (decide_eq_true hn)⟩
  split
  · next ht => exact ⟨boolean true, if_pos ht⟩
  split
  · next hf => exact ⟨boolean false, if_pos hf⟩
  split
  · next hc => exact ⟨hexColor, by simp [read, accepts, hc]⟩
  · next hn ht hf _ hc =>
    refine ⟨text, if_pos ?_⟩
    rw [accepts, isNumber, decide_eq_false hn, word, word, Bool.eq_false_iff.mpr ht,
      Bool.eq_false_iff.mpr hf, hc]
    rfl

/-- A test makes something only of texts that it accepts. -/
theorem accepts_of_read {literal : Literal} (h : test.read value = some literal) :
    test.accepts value := by
  unfold read at h
  split at h
  · assumption
  · cases h

private theorem findSome?_read {literal : Literal} (h : test.read value = some literal)
    (tests : List Test) :
    tests.findSome? (read value) = if test ∈ tests then some literal else none := by
  induction tests with
  | nil => rfl
  | cons first tests ih =>
    rw [List.findSome?_cons, ih]
    cases hfirst : first.read value with
    | some found =>
      obtain rfl := eq_of_accepts (accepts_of_read h) (accepts_of_read hfirst)
      rw [if_pos List.mem_cons_self, ← h, hfirst]
    | none =>
      have hne : test ≠ first := by
        rintro rfl
        cases h.symm.trans hfirst
      simp [List.mem_cons, hne]

end Test

/-! ### Tests in any order -/

/-- The colour of a name. -/
def ofName? (config : Config) (value : String) : Option Literal :=
  (config.color? value).map (fun named ↦ .color named.block named.argb)

/-- What the first test that accepts a text makes of it, if some tests are made before that for the
names of colours and some behind it. -/
def readBy (before behind : List Test) (config : Config) (value : String) : Option Literal :=
  ((before.findSome? (Test.read value)).or (ofName? config value)).or
    (behind.findSome? (Test.read value))

private theorem ofText_eq (config : Config) (value : String) :
    ofText config value = (ofName? config value).getD (ofUnnamed value) := by
  rw [ofText, ofName?]
  cases config.color? value <;> rfl

/-- A text is read without names if its test is made before that for names. -/
theorem readBy_eq {before behind : List Test} (hall : (before ++ behind).Perm Test.all)
    {value : String} {test : Test} (h : test.read value = some (ofUnnamed value))
    (config : Config) : readBy before behind config value =
      some (if test ∈ before then ofUnnamed value else ofText config value) := by
  rw [readBy, Test.findSome?_read h, Test.findSome?_read h]
  split
  · rfl
  · next hb =>
    have hbehind : test ∈ behind :=
      (List.mem_append.mp (hall.mem_iff.mpr (Test.mem_all test))).resolve_left hb
    rw [if_pos hbehind, ofText_eq]
    cases ofName? config value <;> rfl

/-- A text that only one test accepts. -/
def Test.sample : Test → String
  | number => "0"
  | boolean b => word b
  | hexColor => "#000000"
  | text => ""

private theorem Test.read_sample (test : Test) :
    test.read test.sample = some (ofUnnamed test.sample) := by
  cases test with
  | boolean b => cases b <;> decide
  | _ => decide

/-- A configuration with one colour, of no block and no value. -/
def blankColor (name : String) : Config := { Config.builtIn with colors := [⟨name, "", ""⟩] }

private theorem ofText_blankColor (test : Test) :
    ofText (blankColor test.sample) test.sample ≠ ofUnnamed test.sample := by
  cases test with
  | boolean b => cases b <;> decide
  | _ => decide

/-- Two orders read every text alike exactly if the same tests are made before that for names. -/
theorem readBy_congr_iff {before behind before' behind' : List Test}
    (hall : (before ++ behind).Perm Test.all) (hall' : (before' ++ behind').Perm Test.all) :
    (∀ config value, readBy before behind config value = readBy before' behind' config value) ↔
      ∀ test, test ∈ before ↔ test ∈ before' := by
  constructor
  · intro h test
    have hread := h (blankColor test.sample) test.sample
    rw [readBy_eq hall test.read_sample, readBy_eq hall' test.read_sample] at hread
    have hne := ofText_blankColor test
    by_cases hb : test ∈ before <;> by_cases hb' : test ∈ before' <;> simp_all
  · intro h config value
    obtain ⟨test, ht⟩ := Test.exists_read value
    simp only [readBy_eq hall ht, readBy_eq hall' ht, h test]

/-! ### What is kept of a text -/

section kept

variable {value v w : String}

private theorem ofUnnamed_eq_of_read {test : Test} {literal : Literal}
    (h : test.read value = some literal) : ofUnnamed value = literal := by
  obtain ⟨other, ho⟩ := Test.exists_read value
  obtain rfl := Test.eq_of_accepts (Test.accepts_of_read h) (Test.accepts_of_read ho)
  exact Option.some.inj (ho.symm.trans h)

private theorem ofUnnamed_of_word {b : Bool} (h : sameLetters value.toList (Test.word b).toList) :
    ofUnnamed value = .boolean b := by
  have hread : (Test.boolean b).read value = some (.boolean b) := if_pos h
  exact ofUnnamed_eq_of_read hread

private theorem ofUnnamed_of_hexColor {argb : String} (h : hexColor? value = some argb) :
    ofUnnamed value = .color hexColorBlock argb := by
  have hread : Test.hexColor.read value = some (.color hexColorBlock argb) := by
    simp [Test.read, Test.accepts, h]
  exact ofUnnamed_eq_of_read hread

private theorem ofUnnamed_cases (value : String) :
    ofUnnamed value = .number value ∨ ofUnnamed value = .text value ∨
    (∃ b, ofUnnamed value = .boolean b ∧ sameLetters value.toList (Test.word b).toList) ∨
    ∃ argb, ofUnnamed value = .color hexColorBlock argb ∧ hexColor? value = some argb := by
  unfold ofUnnamed
  split
  · exact .inl rfl
  split
  · next h => exact .inr (.inr (.inl ⟨true, rfl, h⟩))
  split
  · next h => exact .inr (.inr (.inl ⟨false, rfl, h⟩))
  split
  · next argb h => exact .inr (.inr (.inr ⟨argb, rfl, h⟩))
  · exact .inr (.inl rfl)

/-- Without names, two texts stand for the same exactly if they are equal, or are spellings of one
truth value or of one colour in hexadecimal digits. -/
theorem ofUnnamed_eq_iff : ofUnnamed v = ofUnnamed w ↔ v = w ∨
    (sameLetters v.toList "true".toList ∧ sameLetters w.toList "true".toList) ∨
    (sameLetters v.toList "false".toList ∧ sameLetters w.toList "false".toList) ∨
    (IsHexColor v ∧ IsHexColor w ∧ sameLetters v.toList w.toList) := by
  constructor
  · intro h
    -- Of the pairs of literals only those of one kind can be equal.
    rcases ofUnnamed_cases v with hv | hv | ⟨b, hv, hb⟩ | ⟨argb, hv, hc⟩ <;>
      rcases ofUnnamed_cases w with hw | hw | ⟨b', hw, hb'⟩ | ⟨argb', hw, hc'⟩ <;>
      rw [hv, hw] at h <;> cases h
    · exact .inl rfl
    · exact .inl rfl
    · cases b with
      | true => exact .inr (.inl ⟨hb, hb'⟩)
      | false => exact .inr (.inr (.inl ⟨hb, hb'⟩))
    · have hfirst := isSome_hexColor?.mp (Option.isSome_of_eq_some hc)
      have hsecond := isSome_hexColor?.mp (Option.isSome_of_eq_some hc')
      exact .inr (.inr (.inr ⟨hfirst, hsecond,
        (hexColor?_eq_iff hfirst hsecond).mp (hc.trans hc'.symm)⟩))
  · rintro (rfl | ⟨hv, hw⟩ | ⟨hv, hw⟩ | ⟨hv, hw, hsame⟩)
    · rfl
    · exact (@ofUnnamed_of_word v true hv).trans (@ofUnnamed_of_word w true hw).symm
    · exact (@ofUnnamed_of_word v false hv).trans (@ofUnnamed_of_word w false hw).symm
    · obtain ⟨argb, hc⟩ := Option.isSome_iff_exists.mp (isSome_hexColor?.mpr hv)
      have hc' := ((hexColor?_eq_iff hv hw).mpr hsame).symm.trans hc
      rw [ofUnnamed_of_hexColor hc, ofUnnamed_of_hexColor hc']

/-- A text that is no colour's name is read without names. -/
theorem ofText_of_unnamed {config : Config} (h : value ∉ config.colors.map Color.name) :
    ofText config value = ofUnnamed value := by
  have hnone : config.color? value = none := by
    rw [Config.color?, List.find?_eq_none]
    intro color hm he
    exact h (List.mem_map.mpr ⟨color, hm, beq_iff_eq.mp he⟩)
  rw [ofText, hnone]

end kept

/-- Of texts that are no names of colours only the case of letters is lost, and only in truth values
and in hexadecimal digits. The tests for numbers, truth values, hexadecimal digits and texts exclude
each other: every text is accepted by exactly one of them. So it makes no difference in which order
they are made, except for which of them come before the names of colours; when a text is read, none
of them does. -/
theorem ofText_keeps_all_but_case :
    (∀ (config : Config) (v w : String), v ∉ config.colors.map Color.name →
      w ∉ config.colors.map Color.name →
      (ofText config v = ofText config w ↔ v = w ∨
        (sameLetters v.toList "true".toList ∧ sameLetters w.toList "true".toList) ∨
        (sameLetters v.toList "false".toList ∧ sameLetters w.toList "false".toList) ∨
        (IsHexColor v ∧ IsHexColor w ∧ sameLetters v.toList w.toList))) ∧
    (∀ value : String, ∃ test : Test, test.read value = some (ofUnnamed value) ∧
      ∀ other : Test, other.accepts value ↔ other = test) ∧
    (∀ config value, readBy [] Test.all config value = some (ofText config value)) ∧
    ∀ before behind before' behind' : List Test, (before ++ behind).Perm Test.all →
      (before' ++ behind').Perm Test.all →
      ((∀ config value, readBy before behind config value =
          readBy before' behind' config value) ↔
        ∀ test, test ∈ before ↔ test ∈ before') := by
  refine ⟨?_, ?_, ?_, fun _ _ _ _ ↦ readBy_congr_iff⟩
  · intro config v w hv hw
    rw [ofText_of_unnamed hv, ofText_of_unnamed hw, ofUnnamed_eq_iff]
  · intro value
    obtain ⟨test, ht⟩ := Test.exists_read value
    have haccepts := Test.accepts_of_read ht
    exact ⟨test, ht, fun other ↦ ⟨fun h ↦ Test.eq_of_accepts h haccepts, fun h ↦ h ▸ haccepts⟩⟩
  · intro config value
    obtain ⟨test, ht⟩ := Test.exists_read value
    rw [readBy_eq (List.Perm.refl _) ht, if_neg List.not_mem_nil]

/-- Two spellings of one colour, and the digits of a number before and behind the named colours. -/
theorem ofText_keeps_all_but_case_sample :
    ("#1a2B3c" ∉ Config.builtIn.colors.map Color.name ∧
      "#1A2b3C" ∉ Config.builtIn.colors.map Color.name) ∧
      ofText .builtIn "#1a2B3c" = ofText .builtIn "#1A2b3C" ∧
      ¬ ∀ config value, readBy [.number] [.boolean true, .boolean false, .hexColor, .text]
          config value = readBy [] Test.all config value := by
  obtain ⟨hkept, -, -, horder⟩ := ofText_keeps_all_but_case
  refine ⟨⟨by decide, by decide⟩, ?_, ?_⟩
  · refine (hkept .builtIn "#1a2B3c" "#1A2b3C" (by decide) (by decide)).mpr
      (.inr (.inr (.inr ⟨?_, ?_, by decide⟩)))
    · exact isSome_hexColor?.mp (by decide)
    · exact isSome_hexColor?.mp (by decide)
  · rw [horder _ _ _ _ (List.Perm.refl _) (List.Perm.refl _)]
    intro h
    exact absurd ((h .number).mp List.mem_cons_self) List.not_mem_nil

end Blockwright.Literal
