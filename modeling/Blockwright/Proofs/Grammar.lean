import Blockwright.Proofs.Blanks
import Blockwright.Script.Statement

/-!
# The grammar of lines

The ways to write each statement, stated without any reader: words in any mix of cases, gaps, names
and free tails stand behind each other and make up the whole line. Each reader takes exactly one of
these parts from the front of a text, as far as it goes, so each rule accepts exactly the lines of
its statements.
-/

namespace Blockwright.Script

open Blockwright.Text

/-! ### Parts of lines -/

/-- A word in any mix of cases. -/
def Spells (word : String) (cs : List Char) : Prop :=
  cs.map lowerAscii = word.toList.map lowerAscii

instance (word : String) (cs : List Char) : Decidable (Spells word cs) :=
  inferInstanceAs (Decidable (_ = _))

/-- One or more characters of names. -/
def IsName (cs : List Char) : Prop := cs ≠ [] ∧ ∀ c ∈ cs, isNameChar c

instance (cs : List Char) : Decidable (IsName cs) :=
  decidable_of_iff (!cs.isEmpty && cs.all isNameChar) (by simp [IsName])

/-- A text that is not empty and starts with no blank. -/
def IsTail (cs : List Char) : Prop := cs ≠ [] ∧ startsBlank cs = false

/-- A word with the gap behind it. -/
def IsLead (word : String) (cs : List Char) : Prop :=
  ∃ spelling gap, Spells word spelling ∧ IsGap gap ∧ cs = spelling ++ gap

/-- A word with the gap before it. -/
def IsEnd (word : String) (cs : List Char) : Prop :=
  ∃ gap spelling, IsGap gap ∧ Spells word spelling ∧ cs = gap ++ spelling

/-- A word between two gaps. -/
def IsLink (word : String) (cs : List Char) : Prop :=
  ∃ gap lead, IsGap gap ∧ IsLead word lead ∧ cs = gap ++ lead

/-- A text that ends with a word behind a blank. Its condition is the text before the word without
the blanks around it, and is not empty. -/
def IsClosed (word : String) (cs condition : List Char) : Prop :=
  ∃ head spelling, endsBlank head ∧ Spells word spelling ∧ cs = head ++ spelling ∧
    condition = trim head ∧ condition ≠ []

/-- A text in parentheses without an inner closing one. -/
def IsGroup (cs inside : List Char) : Prop := ')' ∉ inside ∧ cs = '(' :: inside ++ [')']

/-- The lines that say a statement. -/
inductive Says (line : List Char) : Statement → Prop where
  /-- `on` or `when`, a component, a dot and an event, and perhaps `do`. -/
  | event {lead component occurrence ending : List Char}
    (lead_spells : IsLead "on" lead ∨ IsLead "when" lead) (component_isName : IsName component)
    (event_isName : IsName occurrence) (ends : ending = [] ∨ IsEnd "do" ending)
    (line_eq : line = lead ++ (component ++ '.' :: (occurrence ++ ending))) :
    Says line (.event (.ofList component) (.ofList occurrence))
  /-- `define`, a name, `as` and a value. -/
  | declare {lead name link value : List Char} (lead_spells : IsLead "define" lead)
    (name_isName : IsName name) (links : IsLink "as" link) (value_isTail : IsTail value)
    (line_eq : line = lead ++ (name ++ (link ++ value))) :
    Says line (.declare (.ofList name) (.ofList (unquote value)))
  /-- `define` and a name. -/
  | title {lead name : List Char} (lead_spells : IsLead "define" lead)
    (name_isName : IsName name) (line_eq : line = lead ++ name) :
    Says line (.procedure (.ofList name) [])
  /-- `define`, a name and parameters in parentheses. -/
  | procedure {lead name group inside : List Char} (lead_spells : IsLead "define" lead)
    (name_isName : IsName name) (group_isGroup : IsGroup group inside)
    (line_eq : line = lead ++ (name ++ group)) :
    Says line (.procedure (.ofList name) ((arguments inside).map .ofList))
  /-- `set`, a component, a dot, a property, `to` and a value. -/
  | setProperty {lead component property link value : List Char} (lead_spells : IsLead "set" lead)
    (component_isName : IsName component) (property_isName : IsName property)
    (links : IsLink "to" link) (value_isTail : IsTail value)
    (line_eq : line = lead ++ (component ++ '.' :: (property ++ (link ++ value)))) :
    Says line (.setProperty (.ofList component) (.ofList property) (.ofList (unquote value)))
  /-- `set`, a name, `to` and a value. -/
  | assign {lead name link value : List Char} (lead_spells : IsLead "set" lead)
    (name_isName : IsName name) (links : IsLink "to" link) (value_isTail : IsTail value)
    (line_eq : line = lead ++ (name ++ (link ++ value))) :
    Says line (.assign (.ofList name) (.ofList (unquote value)))
  /-- `call`, a component, a dot and a method. -/
  | bareCall {lead component method : List Char} (lead_spells : IsLead "call" lead)
    (component_isName : IsName component) (method_isName : IsName method)
    (line_eq : line = lead ++ (component ++ '.' :: method)) :
    Says line (.callMethod (.ofList component) (.ofList method) [])
  /-- `call`, a component, a dot, a method, `with` and arguments. -/
  | callMethod {lead component method link given : List Char} (lead_spells : IsLead "call" lead)
    (component_isName : IsName component) (method_isName : IsName method)
    (links : IsLink "with" link) (given_isTail : IsTail given)
    (line_eq : line = lead ++ (component ++ '.' :: (method ++ (link ++ given)))) :
    Says line (.callMethod (.ofList component) (.ofList method) ((arguments given).map .ofList))
  /-- `call`, a name and arguments in parentheses. -/
  | callProcedure {lead name group inside : List Char} (lead_spells : IsLead "call" lead)
    (name_isName : IsName name) (group_isGroup : IsGroup group inside)
    (line_eq : line = lead ++ (name ++ group)) :
    Says line (.callProcedure (.ofList name) ((arguments inside).map .ofList))
  /-- `else`, `if`, a condition and `then`. -/
  | elseIf {lead second closed condition : List Char} (lead_spells : IsLead "else" lead)
    (second_spells : IsLead "if" second) (closes : IsClosed "then" closed condition)
    (line_eq : line = lead ++ (second ++ closed)) : Says line (.elseIf (.ofList condition))
  /-- `else` alone. -/
  | otherwise (spells : Spells "else" line) : Says line .otherwise
  /-- `if`, a condition and `then`. -/
  | branch {lead closed condition : List Char} (lead_spells : IsLead "if" lead)
    (closes : IsClosed "then" closed condition) (line_eq : line = lead ++ closed) :
    Says line (.branch (.ofList condition))
  /-- `for`, `each`, a name, `in`, a name and `do`. -/
  | forEach {lead second item link list ending : List Char} (lead_spells : IsLead "for" lead)
    (second_spells : IsLead "each" second) (item_isName : IsName item) (links : IsLink "in" link)
    (list_isName : IsName list) (ends : IsEnd "do" ending)
    (line_eq : line = lead ++ (second ++ (item ++ (link ++ (list ++ ending))))) :
    Says line (.forEach (.ofList item) (.ofList list))
  /-- `while`, a condition and `do`. -/
  | loop {lead closed condition : List Char} (lead_spells : IsLead "while" lead)
    (closes : IsClosed "do" closed condition) (line_eq : line = lead ++ closed) :
    Says line (.loop (.ofList condition))
  /-- Anything that starts with the letters of `else` or `end`. -/
  | closing {spelling rest : List Char} (spells : Spells "else" spelling ∨ Spells "end" spelling)
    (line_eq : line = spelling ++ rest) : Says line .closing

/-! ### Characters of names -/

private theorem isNameChar_iff {c : Char} : isNameChar c ↔
    (97 ≤ c.toNat ∧ c.toNat ≤ 122) ∨ (65 ≤ c.toNat ∧ c.toNat ≤ 90) ∨
      (48 ≤ c.toNat ∧ c.toNat ≤ 57) ∨ c.toNat = 95 := by
  have hu : c = '_' ↔ c.toNat = 95 := ⟨fun h ↦ by rw [h]; rfl, fun h ↦ Char.toNat_inj.mp h⟩
  simp [isNameChar, Char.le_def, UInt32.le_iff_toNat_le, or_assoc, hu]

/-- A character of names is no blank. -/
theorem isBlank_of_isNameChar {c : Char} (h : isNameChar c) : isBlank c = false := by
  rw [isNameChar_iff] at h
  simp [isBlank]
  omega

/-- A capital letter moves by 32 and every other character stays. -/
theorem toNat_lowerAscii (c : Char) : (lowerAscii c).toNat =
    if 65 ≤ c.toNat ∧ c.toNat ≤ 90 then c.toNat + 32 else c.toNat := by
  have hr : ('A' ≤ c ∧ c ≤ 'Z') ↔ 65 ≤ c.toNat ∧ c.toNat ≤ 90 := by
    simp [Char.le_def, UInt32.le_iff_toNat_le]
  simp only [lowerAscii, hr]
  split
  · rw [Char.ofNat, dif_pos (.inl (by omega))]
    rfl
  · rfl

private theorem isNameChar_lowerAscii (c : Char) : isNameChar (lowerAscii c) = isNameChar c := by
  rw [Bool.eq_iff_iff, isNameChar_iff, isNameChar_iff, toNat_lowerAscii]
  split <;> omega

/-- A spelling of a word that is a name is itself a name. -/
theorem Spells.isName {word : String} {cs : List Char} (h : Spells word cs)
    (hw : IsName word.toList) : IsName cs := by
  constructor
  · rintro rfl
    exact hw.1 (List.map_eq_nil_iff.mp h.symm)
  · intro c hc
    have hm : lowerAscii c ∈ word.toList.map lowerAscii := h ▸ List.mem_map_of_mem hc
    obtain ⟨w, hwm, he⟩ := List.mem_map.mp hm
    rw [← isNameChar_lowerAscii, ← he, isNameChar_lowerAscii]
    exact hw.2 w hwm

/-- A name starts with no blank, whatever follows it. -/
theorem IsName.startsBlank_append {cs : List Char} (h : IsName cs) (rest : List Char) :
    startsBlank (cs ++ rest) = false := by
  cases cs with
  | nil => exact absurd rfl h.1
  | cons c cs => exact isBlank_of_isNameChar (h.2 c List.mem_cons_self)

/-- A gap does not go on with a name. -/
theorem IsGap.continuesName_append {cs : List Char} (h : IsGap cs) (rest : List Char) :
    continuesName (cs ++ rest) = false := by
  cases cs with
  | nil => exact absurd rfl h.1
  | cons c cs =>
    have hc := h.2 c List.mem_cons_self
    rw [List.cons_append, continuesName, Bool.eq_false_iff]
    intro hn
    rw [isBlank_of_isNameChar hn] at hc
    cases hc

/-- A link does not go on with a name. -/
theorem IsLink.continuesName_append {word : String} {cs : List Char} (h : IsLink word cs)
    (rest : List Char) : continuesName (cs ++ rest) = false := by
  obtain ⟨gap, lead, hg, -, rfl⟩ := h
  rw [List.append_assoc]
  exact hg.continuesName_append _

/-- A link starts with a blank. -/
theorem IsLink.startsBlank_append {word : String} {cs : List Char} (h : IsLink word cs)
    (rest : List Char) : startsBlank (cs ++ rest) := by
  obtain ⟨gap, lead, hg, -, rfl⟩ := h
  cases gap with
  | nil => exact absurd rfl hg.1
  | cons c gap => exact hg.2 c List.mem_cons_self

/-- An end does not go on with a name. -/
theorem IsEnd.continuesName {word : String} {cs : List Char} (h : IsEnd word cs) :
    continuesName cs = false := by
  obtain ⟨gap, spelling, hg, -, rfl⟩ := h
  exact hg.continuesName_append _

/-- A group does not go on with a name. -/
theorem IsGroup.continuesName {cs inside : List Char} (h : IsGroup cs inside) :
    continuesName cs = false := by
  rw [h.2]
  rfl

/-- A word with a gap starts with no blank, if the word is a name. -/
theorem IsLead.startsBlank_append {word : String} {cs : List Char} (h : IsLead word cs)
    (hw : IsName word.toList) (rest : List Char) : startsBlank (cs ++ rest) = false := by
  obtain ⟨spelling, gap, hs, -, rfl⟩ := h
  rw [List.append_assoc]
  exact (hs.isName hw).startsBlank_append _

/-! ### What the readers take -/

variable {cs rest : List Char}

/-- A gap is read as far as it goes. -/
theorem blanks_eq_some_iff : blanks cs = some rest ↔
    ∃ gap, IsGap gap ∧ cs = gap ++ rest ∧ startsBlank rest = false := by
  constructor
  · intro h
    cases cs with
    | nil => cases h
    | cons c cs =>
      rw [blanks] at h
      split at h
      · next hc =>
        cases h
        obtain ⟨gap, hg, he⟩ := exists_trimStart cs
        refine ⟨c :: gap, ⟨List.cons_ne_nil _ _, ?_⟩, by rw [List.cons_append, ← he],
          startsBlank_trimStart cs⟩
        simpa [hc] using hg
      · cases h
  · rintro ⟨gap, ⟨hne, hg⟩, rfl, hr⟩
    cases gap with
    | nil => exact absurd rfl hne
    | cons c gap =>
      rw [List.cons_append, blanks, if_pos (hg c List.mem_cons_self),
        trimStart_append (fun d hd ↦ hg d (List.mem_cons_of_mem _ hd)) hr]

/-- A name is read as far as it goes. -/
theorem name_eq_some_iff {read : List Char} : name cs = some (read, rest) ↔
    IsName read ∧ cs = read ++ rest ∧ continuesName rest = false := by
  have hstop : ∀ ds : List Char, continuesName (ds.dropWhile isNameChar) = false := by
    intro ds
    induction ds with
    | nil => rfl
    | cons d ds ih =>
      rw [List.dropWhile_cons]
      split
      · exact ih
      · next hd => simpa [continuesName] using hd
  constructor
  · intro h
    rw [name] at h
    split at h
    · cases h
    · next c ds ht =>
      cases h
      refine ⟨⟨List.cons_ne_nil _ _, ?_⟩, ?_, hstop cs⟩
      · intro d hd
        rw [← ht] at hd
        exact List.mem_takeWhile_imp hd
      · rw [← ht, List.takeWhile_append_dropWhile]
  · rintro ⟨⟨hne, hall⟩, rfl, hr⟩
    -- What follows does not go on with a name, so none of it is taken.
    have hrest : rest.takeWhile isNameChar = [] ∧ rest.dropWhile isNameChar = rest := by
      cases rest with
      | nil => exact ⟨rfl, rfl⟩
      | cons c rest =>
        rw [continuesName] at hr
        simp [hr]
    rw [name, List.takeWhile_append_of_pos hall, List.dropWhile_append_of_pos hall, hrest.1,
      hrest.2, List.append_nil]
    cases read with
    | nil => exact absurd rfl hne
    | cons c read => rfl

/-- A word is read where it is not the start of a longer one. -/
theorem keyword_eq_some_iff {word : String} : keyword word.toList cs = some rest ↔
    ∃ spelling, Spells word spelling ∧ cs = spelling ++ rest ∧ continuesName rest = false := by
  rw [keyword]
  constructor
  · intro h
    split at h
    · cases h
    · next found hd =>
      split at h
      · cases h
      · next hc =>
        cases h
        obtain ⟨spelling, he, hs⟩ := dropWord?_eq_some_iff.mp hd
        exact ⟨spelling, (beq_iff_eq.mp hs).symm, he, by simpa using hc⟩
  · rintro ⟨spelling, hs, he, hc⟩
    have hd := dropWord?_eq_some_iff.mpr ⟨spelling, he, beq_iff_eq.mpr hs.symm⟩
    rw [hd]
    simp [hc]

/-- A word is read with the gap behind it. -/
theorem keywordBlanks_eq_some_iff {word : String} : keywordBlanks word.toList cs = some rest ↔
    ∃ lead, IsLead word lead ∧ cs = lead ++ rest ∧ startsBlank rest = false := by
  rw [keywordBlanks, Option.bind_eq_some_iff]
  constructor
  · rintro ⟨ahead, hk, hb⟩
    obtain ⟨spelling, hs, rfl, -⟩ := keyword_eq_some_iff.mp hk
    obtain ⟨gap, hg, rfl, hr⟩ := blanks_eq_some_iff.mp hb
    exact ⟨spelling ++ gap, ⟨spelling, gap, hs, hg, rfl⟩, by rw [List.append_assoc], hr⟩
  · rintro ⟨lead, ⟨spelling, gap, hs, hg, rfl⟩, rfl, hr⟩
    refine ⟨gap ++ rest, keyword_eq_some_iff.mpr ⟨spelling, hs, by rw [List.append_assoc], ?_⟩,
      blanks_eq_some_iff.mpr ⟨gap, hg, rfl, hr⟩⟩
    exact hg.continuesName_append rest

/-- A character is read as it stands. -/
theorem symbol_eq_some_iff {c : Char} : symbol c cs = some rest ↔ cs = c :: rest := by
  cases cs with
  | nil => simp [symbol]
  | cons d cs => by_cases h : d = c <;> simp [symbol, h]

/-- A line that starts with a word and a gap starts with no other name than that word. -/
theorem IsLead.spells_takeWhile {word : String} {lead : List Char} (h : IsLead word lead)
    (hw : IsName word.toList) (rest : List Char) :
    Spells word ((lead ++ rest).takeWhile isNameChar) := by
  obtain ⟨spelling, gap, hs, hg, rfl⟩ := h
  have hstop : (gap ++ rest).takeWhile isNameChar = [] := by
    have hc := hg.continuesName_append rest
    cases hcs : gap ++ rest with
    | nil => rfl
    | cons c cs =>
      rw [hcs, continuesName] at hc
      simp [hc]
  rw [List.append_assoc, List.takeWhile_append_of_pos (hs.isName hw).2, hstop, List.append_nil]
  exact hs

/-- Of two words that a line could start with at most one is there. -/
theorem orElse_eq_some_iff : (keywordBlanks "on".toList cs <|> keywordBlanks "when".toList cs) =
    some rest ↔ keywordBlanks "on".toList cs = some rest ∨
      keywordBlanks "when".toList cs = some rest := by
  cases ho : keywordBlanks "on".toList cs with
  | none => simp
  | some ahead =>
    have hw : keywordBlanks "when".toList cs ≠ some rest := by
      intro hw
      obtain ⟨lead, hl, rfl, -⟩ := keywordBlanks_eq_some_iff.mp ho
      obtain ⟨other, ho, he, -⟩ := keywordBlanks_eq_some_iff.mp hw
      have hon := hl.spells_takeWhile (by decide) ahead
      have hwhen := ho.spells_takeWhile (by decide) rest
      rw [← he] at hwhen
      exact absurd (hon.symm.trans hwhen) (by decide)
    rw [or_iff_left hw]
    rfl

namespace Rule

/-- Two names are read with the dot between them. -/
theorem dotted_eq_some_iff {owner member : List Char} : dotted cs = some (owner, member, rest) ↔
    IsName owner ∧ IsName member ∧ cs = owner ++ '.' :: (member ++ rest) ∧
      continuesName rest = false := by
  simp only [dotted, Option.bind_eq_bind, Option.bind_eq_some_iff, Option.pure_def,
    Option.some.injEq, Prod.exists, Prod.mk.injEq, name_eq_some_iff, symbol_eq_some_iff]
  constructor
  · rintro ⟨_, _, ⟨ho, rfl, -⟩, _, rfl, _, _, ⟨hm, rfl, hr⟩, rfl, rfl, rfl⟩
    exact ⟨ho, hm, rfl, hr⟩
  · rintro ⟨ho, hm, rfl, hr⟩
    exact ⟨owner, _, ⟨ho, rfl, rfl⟩, _, rfl, member, rest, ⟨hm, rfl, hr⟩, rfl, rfl, rfl⟩

/-- A word between two gaps is read with a tail behind it. -/
theorem afterWord_eq_some_iff (word : String) (hw : IsName word.toList) :
    afterWord word cs = some rest ↔
      ∃ link, IsLink word link ∧ IsTail rest ∧ cs = link ++ rest := by
  simp only [afterWord, Option.bind_eq_bind, Option.bind_eq_some_iff, blanks_eq_some_iff,
    keywordBlanks_eq_some_iff]
  constructor
  · rintro ⟨_, ⟨gap, hg, rfl, -⟩, ahead, ⟨lead, hl, rfl, hs⟩, he⟩
    split at he
    · cases he
    · next hne =>
      cases he
      exact ⟨gap ++ lead, ⟨gap, lead, hg, hl, rfl⟩, ⟨by simpa using hne, hs⟩,
        by rw [List.append_assoc]⟩
  · rintro ⟨_, ⟨gap, lead, hg, hl, rfl⟩, ⟨hne, hs⟩, rfl⟩
    refine ⟨lead ++ rest, ⟨gap, hg, by rw [List.append_assoc], ?_⟩, rest, ⟨lead, hl, rfl, hs⟩,
      by simp [hne]⟩
    obtain ⟨spelling, behind, hsp, -, rfl⟩ := hl
    rw [List.append_assoc]
    exact (hsp.isName hw).startsBlank_append _

/-- A group that ends the line is read as its arguments. -/
theorem parenthesised_eq_some_iff {values : List String} : parenthesised cs = some values ↔
    ∃ inside, IsGroup cs inside ∧ values = (arguments inside).map .ofList := by
  simp only [parenthesised, Option.bind_eq_bind, Option.bind_eq_some_iff, symbol_eq_some_iff]
  constructor
  · rintro ⟨inside, rfl, h⟩
    split at h
    · next hg =>
      obtain ⟨hl, hn⟩ := hg
      obtain ⟨args, rfl⟩ := List.getLast?_eq_some_iff.mp hl
      rw [List.dropLast_concat] at hn h
      exact ⟨args, ⟨hn, rfl⟩, (Option.some.inj h).symm⟩
    · cases h
  · rintro ⟨inside, ⟨hn, rfl⟩, rfl⟩
    exact ⟨inside ++ [')'], rfl, by simp [hn]⟩

/-- An end is read as a gap and a word behind which the line is over. -/
theorem exists_blanks_iff (word : String) (hw : IsName word.toList) :
    (∃ ahead, blanks cs = some ahead ∧ ∃ behind, keyword word.toList ahead = some behind ∧
      atEnd behind = some ()) ↔ IsEnd word cs := by
  simp only [blanks_eq_some_iff, keyword_eq_some_iff]
  constructor
  · rintro ⟨_, ⟨gap, hg, rfl, -⟩, behind, ⟨spelling, hs, rfl, -⟩, he⟩
    rw [atEnd] at he
    split at he
    · next hempty =>
      rw [List.isEmpty_iff.mp hempty, List.append_nil]
      exact ⟨gap, spelling, hg, hs, rfl⟩
    · cases he
  · rintro ⟨gap, spelling, hg, hs, rfl⟩
    refine ⟨spelling, ⟨gap, hg, rfl, ?_⟩, [], ⟨spelling, hs, by simp, rfl⟩, rfl⟩
    simpa using (hs.isName hw).startsBlank_append []

/-- A condition is read up to the word that closes the line. -/
theorem beforeWord_eq_some_iff {word : String} {condition : List Char} :
    beforeWord word.toList cs = some condition ↔ IsClosed word cs condition := by
  simp only [beforeWord, IsClosed]
  constructor
  · intro h
    split at h
    · next hc =>
      simp only [Bool.and_eq_true, Bool.not_eq_true', List.isEmpty_eq_false_iff] at hc
      obtain ⟨⟨hs, he⟩, hne⟩ := hc
      cases h
      exact ⟨_, _, he, beq_iff_eq.mp hs, (List.take_append_drop _ _).symm, rfl, hne⟩
    · cases h
  · rintro ⟨head, spelling, he, hs, rfl, rfl, hne⟩
    have hl : spelling.length = word.toList.length := by
      simpa using congrArg List.length hs
    have hcut : (head ++ spelling).length - word.toList.length = head.length := by
      rw [List.length_append, hl]
      omega
    have hletters : sameLetters spelling word.toList = true := beq_iff_eq.mpr hs
    rw [hcut, List.take_left, List.drop_left, hletters, he]
    simp [hne]

end Rule

private theorem IsLead.append {word : String} {lead gap : List Char} (h : IsLead word lead)
    (hg : ∀ c ∈ gap, isBlank c) : IsLead word (lead ++ gap) := by
  obtain ⟨spelling, own, hs, ho, rfl⟩ := h
  refine ⟨spelling, own ++ gap, hs, ⟨by simp [ho.1], ?_⟩, by rw [List.append_assoc]⟩
  intro c hc
  rcases List.mem_append.mp hc with hc | hc
  · exact ho.2 c hc
  · exact hg c hc

private theorem IsClosed.exists_solid {word : String} {closed condition : List Char}
    (h : IsClosed word closed condition) : ∃ gap solid, (∀ c ∈ gap, isBlank c) ∧
      closed = gap ++ solid ∧ startsBlank solid = false ∧ IsClosed word solid condition := by
  obtain ⟨head, spelling, he, hs, rfl, rfl, hne⟩ := h
  obtain ⟨gap, hg, hhead⟩ := exists_trimStart head
  have htrim : trimStart head ≠ [] := by
    intro h
    rw [← trim_trimStart, h] at hne
    exact hne rfl
  refine ⟨gap, trimStart head ++ spelling, hg, by rw [← List.append_assoc, ← hhead], ?_,
    trimStart head, spelling, ?_, hs, rfl, (trim_trimStart head).symm, hne⟩
  · have hstart := startsBlank_trimStart head
    cases hc : trimStart head with
    | nil => exact absurd hc htrim
    | cons c ds => rwa [hc] at hstart
  · rwa [hhead, endsBlank_append _ htrim] at he

/-- A word, its gap and a closed text are read as the text's condition. -/
theorem IsLead.exists_ahead {word closing : String} {lead closed condition : List Char}
    (hl : IsLead word lead) (hc : IsClosed closing closed condition) :
    ∃ ahead, keywordBlanks word.toList (lead ++ closed) = some ahead ∧
      beforeWord closing.toList ahead = some condition := by
  obtain ⟨gap, solid, hg, rfl, hs, hsolid⟩ := hc.exists_solid
  refine ⟨solid, keywordBlanks_eq_some_iff.mpr ⟨lead ++ gap, hl.append hg, ?_, hs⟩,
    Rule.beforeWord_eq_some_iff.mpr hsolid⟩
  rw [List.append_assoc]

end Blockwright.Script
