import Blockwright.Proofs.LineRules
import Blockwright.Proofs.Lines

/-!
# One way to write each statement

Every statement has a phrase, in which values and arguments stand in double quotes. A phrase is a
line of its own whatever its indentation, and it is read as its statement, as long as names are
names, nothing runs over the end of a line, and no argument holds what would end it.
-/

namespace Blockwright.Script

open Blockwright.Text

/-! ### Values and arguments -/

/-- A value in double quotes. -/
def inQuotes (value : String) : String := "\"" ++ value ++ "\""

/-- Values in double quotes with a comma and a space between. -/
def inList : List String → String
  | [] => ""
  | [value] => inQuotes value
  | value :: values => inQuotes value ++ ", " ++ inList values

/-- A text that can be a value: it stays on its line. -/
def IsValue (value : String) : Prop := '\n' ∉ value.toList

/-- A text that can be an argument: it is not empty, stays on its line and holds no comma. -/
def IsArgument (argument : String) : Prop :=
  argument ≠ "" ∧ '\n' ∉ argument.toList ∧ ',' ∉ argument.toList

/-- A text that can be a condition: it is not empty, stays on its line and has no blank at either
end. -/
def IsCondition (condition : String) : Prop :=
  condition ≠ "" ∧ '\n' ∉ condition.toList ∧ startsBlank condition.toList = false ∧
    endsBlank condition.toList = false

instance (value : String) : Decidable (IsValue value) := inferInstanceAs (Decidable (¬ _))

instance (argument : String) : Decidable (IsArgument argument) :=
  inferInstanceAs (Decidable (_ ∧ _))

instance (condition : String) : Decidable (IsCondition condition) :=
  inferInstanceAs (Decidable (_ ∧ _))

private theorem toList_inQuotes (value : String) :
    (inQuotes value).toList = '"' :: (value.toList ++ ['"']) := by
  simp [inQuotes]

private theorem toList_inList (value next : String) (values : List String) :
    (inList (value :: next :: values)).toList =
      (inQuotes value).toList ++ ',' :: ' ' :: (inList (next :: values)).toList := by
  simp [inList]

private theorem solid_inQuotes (value : String) :
    IsTail (inQuotes value).toList ∧ endsBlank (inQuotes value).toList = false := by
  rw [toList_inQuotes]
  exact ⟨⟨List.cons_ne_nil _ _, rfl⟩,
    endsBlank_append ('"' :: value.toList) (List.cons_ne_nil '"' [])⟩

private theorem unquote_inQuotes {gap : List Char} (hg : ∀ c ∈ gap, isBlank c) (value : String) :
    unquote (gap ++ (inQuotes value).toList) = value.toList := by
  obtain ⟨⟨-, hs⟩, he⟩ := solid_inQuotes value
  rw [unquote, trim_append hg hs, trim_of_solid hs he, toList_inQuotes, dropQuotes]
  simp [isQuote]

private theorem filter_unquote {gap : List Char} (hg : ∀ c ∈ gap, isBlank c) {value : String}
    (hv : IsArgument value) (pieces : List (List Char)) :
    (((gap ++ (inQuotes value).toList) :: pieces).map unquote).filter (fun piece ↦ !piece.isEmpty) =
      value.toList :: (pieces.map unquote).filter (fun piece ↦ !piece.isEmpty) := by
  rw [List.map_cons, unquote_inQuotes hg, List.filter_cons_of_pos (by simpa using hv.1)]

private theorem comma_notMem {gap : List Char} (hg : ∀ c ∈ gap, isBlank c) {value : String}
    (hv : IsArgument value) : ',' ∉ gap ++ (inQuotes value).toList := by
  have hgap : ',' ∉ gap := fun hm ↦ absurd (hg _ hm) (by decide)
  simp [toList_inQuotes, hgap, hv.2.2]

private theorem arguments_append_inList {values : List String}
    (h : ∀ value ∈ values, IsArgument value) {gap : List Char} (hg : ∀ c ∈ gap, isBlank c) :
    arguments (gap ++ (inList values).toList) = values.map String.toList := by
  induction values generalizing gap with
  | nil =>
    have hc : ',' ∉ gap ++ [] := by
      intro hm
      exact absurd (hg _ (by simpa using hm)) (by decide)
    have hu : unquote (gap ++ []) = [] := by
      rw [unquote, trim_append hg rfl]
      rfl
    rw [arguments, inList, String.toList_empty, List.splitOn_eq_singleton hc, List.map_singleton,
      hu]
    rfl
  | cons value values ih =>
    have hv := h value List.mem_cons_self
    cases values with
    | nil =>
      rw [arguments, inList, List.splitOn_eq_singleton (comma_notMem hg hv), filter_unquote hg hv]
      rfl
    | cons next values =>
      have hrest := @ih (fun other ho ↦ h other (List.mem_cons_of_mem _ ho)) [' '] isGap_space.2
      rw [arguments, toList_inList, ← List.append_assoc,
        List.splitOn_append_cons_self_of_not_mem (comma_notMem hg hv), filter_unquote hg hv,
        List.map_cons, ← hrest]
      rfl

private theorem arguments_inList {values : List String} (h : ∀ value ∈ values, IsArgument value) :
    (arguments (inList values).toList).map String.ofList = values := by
  have hlist := @arguments_append_inList values h [] (by simp)
  rw [List.nil_append] at hlist
  simp [hlist]

private theorem exists_mem_of_mem_inList {c : Char} {values : List String}
    (h : c ∈ (inList values).toList) (hc : c ∉ ['"', ',', ' ']) :
    ∃ value ∈ values, c ∈ value.toList := by
  have hquotes (value : String) (hm : c ∈ (inQuotes value).toList) : c ∈ value.toList := by
    rw [toList_inQuotes] at hm
    simp_all
  induction values with
  | nil => simp [inList] at h
  | cons value values ih =>
    cases values with
    | nil => exact ⟨value, List.mem_cons_self, hquotes value h⟩
    | cons next values =>
      rw [toList_inList, List.mem_append] at h
      rcases h with h | h
      · exact ⟨value, List.mem_cons_self, hquotes value h⟩
      · obtain ⟨other, ho, hm⟩ := ih (by simp_all)
        exact ⟨other, List.mem_cons_of_mem _ ho, hm⟩

private theorem solid_inList (value : String) (values : List String) :
    IsTail (inList (value :: values)).toList ∧
      endsBlank (inList (value :: values)).toList = false := by
  induction values generalizing value with
  | nil => exact solid_inQuotes value
  | cons next values ih =>
    obtain ⟨⟨hne, -⟩, he⟩ := ih next
    have hsplit : (inList (value :: next :: values)).toList =
        ((inQuotes value).toList ++ [',', ' ']) ++ (inList (next :: values)).toList := by
      rw [toList_inList, List.append_assoc]
      rfl
    rw [hsplit, endsBlank_append _ hne, toList_inQuotes]
    exact ⟨⟨by simp, rfl⟩, he⟩

/-! ### Phrases -/

namespace Statement

/-- How arguments are given to a method; without any there is nothing to write. -/
def givenTo : List String → String
  | [] => ""
  | argument :: arguments => " with " ++ inList (argument :: arguments)

/-- The phrase of a statement. -/
def phrase : Statement → String
  | event component occurrence => "On " ++ component ++ "." ++ occurrence ++ " do"
  | declare name value => "Define " ++ name ++ " as " ++ inQuotes value
  | procedure name parameters => "Define " ++ name ++ "(" ++ inList parameters ++ ")"
  | setProperty component property value =>
    "Set " ++ component ++ "." ++ property ++ " to " ++ inQuotes value
  | assign target value => "Set " ++ target ++ " to " ++ inQuotes value
  | callMethod component method arguments =>
    "Call " ++ component ++ "." ++ method ++ givenTo arguments
  | callProcedure name arguments => "Call " ++ name ++ "(" ++ inList arguments ++ ")"
  | elseIf condition => "Else If " ++ condition ++ " then"
  | otherwise => "Else"
  | branch condition => "If " ++ condition ++ " then"
  | forEach item list => "For each " ++ item ++ " in " ++ list ++ " do"
  | loop condition => "While " ++ condition ++ " do"
  | closing => "End"

/-- Whether the phrase of a statement can be read back. -/
def Expressible : Statement → Prop
  | event component occurrence => IsName component.toList ∧ IsName occurrence.toList
  | declare name value => IsName name.toList ∧ IsValue value
  | procedure name parameters =>
    IsName name.toList ∧ ∀ p ∈ parameters, IsArgument p ∧ ')' ∉ p.toList
  | setProperty component property value =>
    IsName component.toList ∧ IsName property.toList ∧ IsValue value
  | assign target value => IsName target.toList ∧ IsValue value
  | callMethod component method arguments =>
    IsName component.toList ∧ IsName method.toList ∧ ∀ a ∈ arguments, IsArgument a
  | callProcedure name arguments =>
    IsName name.toList ∧ ∀ a ∈ arguments, IsArgument a ∧ ')' ∉ a.toList
  | elseIf condition | branch condition | loop condition => IsCondition condition
  | forEach item list => IsName item.toList ∧ IsName list.toList
  | otherwise | closing => True

instance : DecidablePred Expressible
  | event .. | declare .. | procedure .. | setProperty .. | assign .. | callMethod ..
  | callProcedure .. | forEach .. => inferInstanceAs (Decidable (_ ∧ _))
  | elseIf _ | branch _ | loop _ => inferInstanceAs (Decidable (IsCondition _))
  | otherwise | closing => inferInstanceAs (Decidable True)

end Statement

/-! ### Phrases say their statements -/

private theorem isLead_word (word spelling : String) (h : Spells word spelling.toList) :
    IsLead word (spelling ++ " ").toList :=
  ⟨_, [' '], h, isGap_space, by simp⟩

private theorem isLink_word (word : String) : IsLink word (" " ++ (word ++ " ")).toList :=
  ⟨[' '], _, isGap_space, isLead_word word word rfl, by simp⟩

private theorem isEnd_word (word : String) : IsEnd word (" " ++ word).toList :=
  ⟨[' '], _, isGap_space, rfl, by simp⟩

private theorem isClosed_condition {condition : String} (h : IsCondition condition)
    (word : String) :
    IsClosed word (condition ++ (" " ++ word)).toList condition.toList := by
  obtain ⟨hne, -, hs, he⟩ := h
  have hne : condition.toList ≠ [] := by simpa using hne
  refine ⟨condition.toList ++ [' '], word.toList, ?_, rfl, by simp, ?_, hne⟩
  · rw [endsBlank_append _ (by simp)]
    rfl
  · rw [trim_append_gap hs he hne isGap_space.2]

private theorem isGroup_inList {values : List String}
    (h : ∀ value ∈ values, IsArgument value ∧ ')' ∉ value.toList) :
    IsGroup ("(" ++ inList values ++ ")").toList (inList values).toList := by
  refine ⟨fun hm ↦ ?_, by simp⟩
  obtain ⟨value, hv, hin⟩ := exists_mem_of_mem_inList hm (by decide)
  exact (h value hv).2 hin

private theorem Statement.says_phrase {s : Statement} (h : s.Expressible) :
    Says s.phrase.toList s := by
  have hvalue (value : String) : String.ofList (unquote (inQuotes value).toList) = value := by
    rw [← List.nil_append (inQuotes value).toList, unquote_inQuotes (by simp),
      String.ofList_toList]
  have htail (value : String) : IsTail (inQuotes value).toList := (solid_inQuotes value).1
  cases s with
  | event component occurrence =>
    have hl := isLead_word "on" "On" (by decide)
    have hsaid := Says.event (.inl hl) h.1 h.2 (.inr (isEnd_word "do")) rfl
    simpa [phrase] using hsaid
  | declare name value =>
    have hl := isLead_word "define" "Define" (by decide)
    have hsaid := Says.declare hl h.1 (isLink_word "as") (htail value) rfl
    simpa [phrase, hvalue] using hsaid
  | procedure name parameters =>
    have hl := isLead_word "define" "Define" (by decide)
    have hsaid := Says.procedure hl h.1 (isGroup_inList h.2) rfl
    rw [arguments_inList (fun p hp ↦ (h.2 p hp).1)] at hsaid
    simpa [phrase] using hsaid
  | setProperty component property value =>
    have hl := isLead_word "set" "Set" (by decide)
    have hsaid := Says.setProperty hl h.1 h.2.1 (isLink_word "to") (htail value) rfl
    simpa [phrase, hvalue] using hsaid
  | assign target value =>
    have hl := isLead_word "set" "Set" (by decide)
    have hsaid := Says.assign hl h.1 (isLink_word "to") (htail value) rfl
    simpa [phrase, hvalue] using hsaid
  | callMethod component method given =>
    have hl := isLead_word "call" "Call" (by decide)
    cases given with
    | nil =>
      have hsaid := Says.bareCall hl h.1 h.2.1 rfl
      simpa [phrase, givenTo] using hsaid
    | cons first given =>
      have ht := (solid_inList first given).1
      have hsaid := Says.callMethod hl h.1 h.2.1 (isLink_word "with") ht rfl
      rw [arguments_inList h.2.2] at hsaid
      simpa [phrase, givenTo] using hsaid
  | callProcedure name given =>
    have hl := isLead_word "call" "Call" (by decide)
    have hsaid := Says.callProcedure hl h.1 (isGroup_inList h.2) rfl
    rw [arguments_inList (fun a ha ↦ (h.2 a ha).1)] at hsaid
    simpa [phrase] using hsaid
  | elseIf condition =>
    have hl := isLead_word "else" "Else" (by decide)
    have hi := isLead_word "if" "If" (by decide)
    have hsaid := Says.elseIf hl hi (isClosed_condition h "then") rfl
    simpa [phrase] using hsaid
  | otherwise => exact .otherwise (by decide)
  | branch condition =>
    have hl := isLead_word "if" "If" (by decide)
    have hsaid := Says.branch hl (isClosed_condition h "then") rfl
    simpa [phrase] using hsaid
  | forEach item list =>
    have hl := isLead_word "for" "For" (by decide)
    have hs := isLead_word "each" "each" (by decide)
    have hsaid := Says.forEach hl hs h.1 (isLink_word "in") h.2 (isEnd_word "do") rfl
    simpa [phrase] using hsaid
  | loop condition =>
    have hl := isLead_word "while" "While" (by decide)
    have hsaid := Says.loop hl (isClosed_condition h "do") rfl
    simpa [phrase] using hsaid
  | closing => exact @Says.closing _ "End".toList [] (.inr (by decide)) (List.append_nil _).symm

/-- The phrase of a statement is read as the statement. -/
theorem Statement.read_phrase {s : Statement} (h : s.Expressible) : read s.phrase = some s := by
  by_cases hc : s = .closing
  · rw [hc]
    decide
  · exact read_of_saying (says_phrase h) hc

/-! ### Phrases as lines -/

private theorem Statement.exists_phrase_eq (s : Statement) :
    ∃ c cs, s.phrase.toList = c :: cs ∧ isNameChar c := by
  cases s <;> simp [phrase] <;> decide

private theorem IsName.solid {cs : List Char} (h : IsName cs) :
    '\n' ∉ cs ∧ endsBlank cs = false := by
  constructor
  · exact fun hm ↦ absurd (h.2 _ hm) (by decide)
  · rw [endsBlank, List.getLast?_eq_some_getLast h.1]
    exact isBlank_of_isNameChar (h.2 _ (List.getLast_mem h.1))

private theorem IsValue.lineFeed_notMem {value : String} (h : IsValue value) :
    '\n' ∉ (inQuotes value).toList := by
  rw [IsValue] at h
  simp [toList_inQuotes, h]

private theorem lineFeed_notMem_inList {values : List String} (h : ∀ v ∈ values, IsArgument v) :
    '\n' ∉ (inList values).toList := by
  intro hm
  obtain ⟨value, hv, hin⟩ := exists_mem_of_mem_inList hm (by decide)
  exact (h value hv).2.1 hin

private theorem Statement.lineFeed_notMem_phrase {s : Statement} (h : s.Expressible) :
    '\n' ∉ s.phrase.toList := by
  cases s with
  | event component occurrence => simp [phrase, h.1.solid, h.2.solid]
  | declare name value => simp [phrase, h.1.solid, h.2.lineFeed_notMem]
  | procedure name parameters =>
    simp [phrase, h.1.solid, lineFeed_notMem_inList (fun p hp ↦ (h.2 p hp).1)]
  | setProperty component property value =>
    simp [phrase, h.1.solid, h.2.1.solid, h.2.2.lineFeed_notMem]
  | assign target value => simp [phrase, h.1.solid, h.2.lineFeed_notMem]
  | callMethod component method given =>
    have hg := lineFeed_notMem_inList h.2.2
    cases given <;> simp [phrase, givenTo, h.1.solid, h.2.1.solid, hg]
  | callProcedure name given =>
    simp [phrase, h.1.solid, lineFeed_notMem_inList (fun a ha ↦ (h.2 a ha).1)]
  | elseIf condition => simp [phrase, h.2.1]
  | otherwise => decide
  | branch condition => simp [phrase, h.2.1]
  | forEach item list => simp [phrase, h.1.solid, h.2.solid]
  | loop condition => simp [phrase, h.2.1]
  | closing => decide

private theorem Statement.endsBlank_phrase {s : Statement} (h : s.Expressible) :
    endsBlank s.phrase.toList = false := by
  have hword (text : String) (word : String) (hw : word.toList ≠ []) :
      endsBlank (text ++ word).toList = endsBlank word.toList := by
    rw [String.toList_append, endsBlank_append _ hw]
  cases s with
  | callMethod component method given =>
    cases given with
    | nil =>
      rw [phrase, givenTo, String.append_empty, hword _ _ h.2.1.1]
      exact h.2.1.solid.2
    | cons first given =>
      obtain ⟨⟨hne, -⟩, he⟩ := solid_inList first given
      rw [phrase, givenTo, ← String.append_assoc, hword _ _ hne, he]
  | declare name value | setProperty component property value | assign target value =>
    obtain ⟨⟨hne, -⟩, he⟩ := solid_inQuotes value
    rw [phrase, hword _ _ hne, he]
  | otherwise | closing => decide
  | _ =>
    rw [phrase, hword _ _ (by decide)]
    decide

/-- A line that starts with spaces and goes on with no blank is as wide as there are spaces. -/
theorem indentWidth_replicate_append (width : Nat) {text : List Char}
    (h : startsBlank text = false) : indentWidth (List.replicate width ' ' ++ text) = width := by
  rw [indentWidth, indentFrom_replicate_append, Nat.zero_add]
  cases text with
  | nil => rfl
  | cons c text =>
    have hc : isBlank c = false := h
    have ht : c ≠ '\t' := by
      rintro rfl
      cases hc
    rw [indentFrom, if_neg ht, hc]
    rfl

/-- A phrase behind spaces is a line with that indentation. -/
theorem Statement.ofRaw_phrase {s : Statement} (h : s.Expressible) (number width : Nat) :
    SourceLine.ofRaw number (List.replicate width ' ' ++ s.phrase.toList) =
      some ⟨number, width, s.phrase⟩ := by
  obtain ⟨c, cs, hp, hc⟩ := s.exists_phrase_eq
  have hstart : startsBlank s.phrase.toList = false := by
    rw [hp]
    exact isBlank_of_isNameChar hc
  have htrim : trim (List.replicate width ' ' ++ s.phrase.toList) = s.phrase.toList := by
    have hspaces : ∀ c ∈ List.replicate width ' ', isBlank c := by
      intro c hm
      rw [List.eq_of_mem_replicate hm]
      decide
    rw [trim_append hspaces hstart, trim_of_solid hstart (endsBlank_phrase h)]
  have hsilent : isSilent s.phrase.toList = false := by
    rw [Bool.eq_false_iff, ne_eq, isSilent_iff, hp]
    rintro (he | ⟨rest, he⟩)
    · cases he
    · cases he
      cases hc
  rw [SourceLine.ofRaw_eq_some_iff, htrim, indentWidth_replicate_append width hstart,
    String.ofList_toList]
  exact ⟨hsilent, rfl⟩

/-- A phrase behind spaces is not cut or shortened when a text is cut into lines. -/
theorem Statement.phrase_isLine {s : Statement} (h : s.Expressible) (width : Nat) :
    '\n' ∉ List.replicate width ' ' ++ s.phrase.toList ∧
      (List.replicate width ' ' ++ s.phrase.toList).getLast? ≠ some '\r' := by
  obtain ⟨c, cs, hp, -⟩ := s.exists_phrase_eq
  refine ⟨by simp [lineFeed_notMem_phrase h], fun hr ↦ ?_⟩
  have he := endsBlank_append (List.replicate width ' ') (hp ▸ List.cons_ne_nil c cs)
  rw [endsBlank, hr, endsBlank_phrase h] at he
  cases he

end Blockwright.Script
