import Blockwright.Proofs.Grammar

/-!
# The line rules follow the grammar

Every rule accepts exactly the lines that say one of its statements. No line says two things, apart
from lines that close blocks, whose rule is tried last; so the first rule that accepts a line is the
only one that matters.
-/

namespace Blockwright.Script

open Blockwright.Text

/-! ### What the rules accept -/

/-- The rule that recognises a statement. -/
def Statement.rule : Statement → Rule
  | event .. => .event
  | declare .. => .declare
  | procedure .. => .procedure
  | setProperty .. => .setProperty
  | assign .. => .assign
  | callMethod .. => .callMethod
  | callProcedure .. => .callProcedure
  | elseIf _ => .elseIf
  | otherwise => .otherwise
  | branch _ => .branch
  | forEach .. => .forEach
  | loop _ => .loop
  | closing => .closing

namespace Rule

variable {line : List Char} {statement : Statement}

private theorem eventEnd_iff {rest : List Char} {found : Statement} :
    (match blanks rest with
      | some ahead => (keyword "do".toList ahead).bind (fun ahead ↦
          (atEnd ahead).bind (fun _ ↦ some found))
      | none => (some rest).bind (fun ahead ↦ (atEnd ahead).bind (fun _ ↦ some found))) =
        some statement ↔ (rest = [] ∨ IsEnd "do" rest) ∧ found = statement := by
  rw [← exists_blanks_iff "do" (by decide)]
  cases hb : blanks rest with
  | none => by_cases hr : rest = [] <;> simp [atEnd, hr]
  | some ahead =>
    have hr : rest ≠ [] := by
      rintro rfl
      cases hb
    simp only [Option.bind_eq_some_iff, hr, false_or, Option.some.injEq]
    constructor
    · rintro ⟨behind, hk, _, he, hs⟩
      exact ⟨⟨ahead, rfl, behind, hk, he⟩, hs⟩
    · rintro ⟨⟨_, rfl, behind, hk, he⟩, hs⟩
      exact ⟨behind, hk, (), he, hs⟩

/-- The event rule accepts the lines that say an event. -/
theorem readEvent_eq_some_iff :
    readEvent line = some statement ↔ Says line statement ∧ statement.rule = .event := by
  simp only [readEvent, Option.bind_eq_bind, Option.bind_eq_some_iff, Prod.exists, Option.pure_def,
    orElse_eq_some_iff, keywordBlanks_eq_some_iff, dotted_eq_some_iff]
  constructor
  · rintro ⟨_, hl, component, occurrence, ending, ⟨hc, ho, rfl, -⟩, hs⟩
    obtain ⟨he, rfl⟩ := eventEnd_iff.mp hs
    rcases hl with ⟨lead, hl, rfl, -⟩ | ⟨lead, hl, rfl, -⟩
    · exact ⟨.event (.inl hl) hc ho he rfl, rfl⟩
    · exact ⟨.event (.inr hl) hc ho he rfl, rfl⟩
  · rintro ⟨h, hr⟩
    cases h with
    | @event lead component occurrence ending hl hc ho he hline =>
      have hstart := hc.startsBlank_append ('.' :: (occurrence ++ ending))
      refine ⟨_, hl.imp (fun hl ↦ ⟨_, hl, hline, hstart⟩) (fun hl ↦ ⟨_, hl, hline, hstart⟩),
        _, _, _, ⟨hc, ho, rfl, ?_⟩, eventEnd_iff.mpr ⟨he, rfl⟩⟩
      rcases he with rfl | he
      · rfl
      · exact he.continuesName
    | _ => cases hr

private theorem namedValue_eq_some_iff {word : String} (second : String)
    (hsecond : IsName second.toList) (make : List Char → List Char → Statement) :
    ((keywordBlanks word.toList line).bind (fun ahead ↦ (name ahead).bind (fun read ↦
      (afterWord second read.2).bind (fun value ↦ some (make read.1 value))))) = some statement ↔
      ∃ lead name link value, IsLead word lead ∧ IsName name ∧ IsLink second link ∧
        IsTail value ∧ line = lead ++ (name ++ (link ++ value)) ∧ make name value = statement := by
  simp only [Option.bind_eq_some_iff, Prod.exists, Option.some.injEq, keywordBlanks_eq_some_iff,
    name_eq_some_iff, afterWord_eq_some_iff second hsecond]
  constructor
  · rintro ⟨_, ⟨lead, hl, rfl, -⟩, name, _, ⟨hn, rfl, -⟩, value, ⟨link, hk, hv, rfl⟩, hmake⟩
    exact ⟨lead, name, link, value, hl, hn, hk, hv, rfl, hmake⟩
  · rintro ⟨lead, name, link, value, hl, hn, hk, hv, he, hmake⟩
    exact ⟨_, ⟨lead, hl, he, hn.startsBlank_append _⟩, name, _,
      ⟨hn, rfl, hk.continuesName_append _⟩, value, ⟨link, hk, hv, rfl⟩, hmake⟩

/-- The declaration rule accepts the lines that declare a variable. -/
theorem readDeclare_eq_some_iff :
    readDeclare line = some statement ↔ Says line statement ∧ statement.rule = .declare := by
  refine (namedValue_eq_some_iff "as" (by decide) (fun name value ↦
    .declare (.ofList name) (.ofList (unquote value)))).trans ⟨?_, ?_⟩
  · rintro ⟨lead, name, link, value, hl, hn, hk, hv, he, rfl⟩
    exact ⟨.declare hl hn hk hv he, rfl⟩
  · rintro ⟨h, hr⟩
    cases h with
    | declare hl hn hk hv he => exact ⟨_, _, _, _, hl, hn, hk, hv, he, rfl⟩
    | _ => cases hr

/-- The procedure rule accepts the lines that open a procedure. -/
theorem readProcedure_eq_some_iff :
    readProcedure line = some statement ↔ Says line statement ∧ statement.rule = .procedure := by
  simp only [readProcedure, Option.bind_eq_bind, Option.bind_eq_some_iff, Prod.exists,
    Option.pure_def, keywordBlanks_eq_some_iff, name_eq_some_iff]
  constructor
  · rintro ⟨_, ⟨lead, hl, rfl, -⟩, name, rest, ⟨hn, rfl, -⟩, hs⟩
    split at hs
    · next he =>
      cases hs
      rw [List.isEmpty_iff.mp he, List.append_nil]
      exact ⟨.title hl hn rfl, rfl⟩
    · obtain ⟨values, hp, hfound⟩ := Option.bind_eq_some_iff.mp hs
      obtain ⟨inside, hg, rfl⟩ := parenthesised_eq_some_iff.mp hp
      cases hfound
      exact ⟨.procedure hl hn hg rfl, rfl⟩
  · rintro ⟨h, hr⟩
    cases h with
    | title hl hn he =>
      refine ⟨_, ⟨_, hl, he, ?_⟩, _, [], ⟨hn, (List.append_nil _).symm, rfl⟩, rfl⟩
      simpa using hn.startsBlank_append []
    | procedure hl hn hg he =>
      refine ⟨_, ⟨_, hl, he, hn.startsBlank_append _⟩, _, _, ⟨hn, rfl, ?_⟩, ?_⟩
      · rw [hg.2]
        rfl
      · rw [if_neg (by rw [hg.2]; simp), parenthesised_eq_some_iff.mpr ⟨_, hg, rfl⟩]
        rfl
    | _ => cases hr

/-- The property rule accepts the lines that set a property. -/
theorem readSetProperty_eq_some_iff :
    readSetProperty line = some statement ↔
      Says line statement ∧ statement.rule = .setProperty := by
  simp only [readSetProperty, Option.bind_eq_bind, Option.bind_eq_some_iff, Prod.exists,
    Option.pure_def, Option.some.injEq, keywordBlanks_eq_some_iff, dotted_eq_some_iff,
    afterWord_eq_some_iff "to" (by decide)]
  constructor
  · rintro ⟨_, ⟨lead, hl, rfl, -⟩, component, property, _, ⟨hc, hp, rfl, -⟩, value,
      ⟨link, hk, hv, rfl⟩, rfl⟩
    exact ⟨.setProperty hl hc hp hk hv rfl, rfl⟩
  · rintro ⟨h, hr⟩
    cases h with
    | setProperty hl hc hp hk hv he =>
      exact ⟨_, ⟨_, hl, he, hc.startsBlank_append _⟩, _, _, _,
        ⟨hc, hp, rfl, hk.continuesName_append _⟩, _, ⟨_, hk, hv, rfl⟩, rfl⟩
    | _ => cases hr

/-- The assignment rule accepts the lines that set a variable. -/
theorem readAssign_eq_some_iff :
    readAssign line = some statement ↔ Says line statement ∧ statement.rule = .assign := by
  refine (namedValue_eq_some_iff "to" (by decide) (fun name value ↦
    .assign (.ofList name) (.ofList (unquote value)))).trans ⟨?_, ?_⟩
  · rintro ⟨lead, name, link, value, hl, hn, hk, hv, he, rfl⟩
    exact ⟨.assign hl hn hk hv he, rfl⟩
  · rintro ⟨h, hr⟩
    cases h with
    | assign hl hn hk hv he => exact ⟨_, _, _, _, hl, hn, hk, hv, he, rfl⟩
    | _ => cases hr

/-- The method rule accepts the lines that call a method. -/
theorem readCallMethod_eq_some_iff :
    readCallMethod line = some statement ↔ Says line statement ∧ statement.rule = .callMethod := by
  simp only [readCallMethod, Option.bind_eq_bind, Option.bind_eq_some_iff, Prod.exists,
    Option.pure_def, keywordBlanks_eq_some_iff, dotted_eq_some_iff]
  have hwith {rest given : List Char} :=
    @afterWord_eq_some_iff rest given "with" (by decide)
  constructor
  · rintro ⟨_, ⟨lead, hl, rfl, -⟩, component, method, rest, ⟨hc, hm, rfl, -⟩, hs⟩
    split at hs
    · next he =>
      cases hs
      rw [List.isEmpty_iff.mp he, List.append_nil]
      exact ⟨.bareCall hl hc hm rfl, rfl⟩
    · obtain ⟨values, hv, hfound⟩ := Option.bind_eq_some_iff.mp hs
      obtain ⟨given, ha, rfl⟩ := Option.map_eq_some_iff.mp hv
      obtain ⟨link, hk, hg, rfl⟩ := hwith.mp ha
      cases hfound
      exact ⟨.callMethod hl hc hm hk hg rfl, rfl⟩
  · rintro ⟨h, hr⟩
    cases h with
    | bareCall hl hc hm he =>
      refine ⟨_, ⟨_, hl, he, hc.startsBlank_append _⟩, _, _, [], ⟨hc, hm, ?_, rfl⟩, rfl⟩
      rw [List.append_nil]
    | @callMethod _ _ _ link given hl hc hm hk hg he =>
      refine ⟨_, ⟨_, hl, he, hc.startsBlank_append _⟩, _, _, _,
        ⟨hc, hm, rfl, hk.continuesName_append _⟩, ?_⟩
      rw [if_neg (by simp [hg.1]), hwith.mpr ⟨link, hk, hg, rfl⟩]
      rfl
    | _ => cases hr

/-- The call rule accepts the lines that call a procedure. -/
theorem readCallProcedure_eq_some_iff :
    readCallProcedure line = some statement ↔
      Says line statement ∧ statement.rule = .callProcedure := by
  simp only [readCallProcedure, Option.bind_eq_bind, Option.bind_eq_some_iff, Prod.exists,
    Option.pure_def, Option.some.injEq, keywordBlanks_eq_some_iff, name_eq_some_iff,
    parenthesised_eq_some_iff]
  constructor
  · rintro ⟨_, ⟨lead, hl, rfl, -⟩, name, _, ⟨hn, rfl, -⟩, _, ⟨inside, hg, rfl⟩, rfl⟩
    exact ⟨.callProcedure hl hn hg rfl, rfl⟩
  · rintro ⟨h, hr⟩
    cases h with
    | callProcedure hl hn hg he =>
      exact ⟨_, ⟨_, hl, he, hn.startsBlank_append _⟩, _, _, ⟨hn, rfl, hg.continuesName⟩, _,
        ⟨_, hg, rfl⟩, rfl⟩
    | _ => cases hr

private theorem closed_eq_some_iff {word second : String} {make : List Char → Statement} :
    ((keywordBlanks word.toList line).bind (fun ahead ↦
      (beforeWord second.toList ahead).bind (fun condition ↦ some (make condition)))) =
        some statement ↔
      ∃ lead closed condition, IsLead word lead ∧ IsClosed second closed condition ∧
        line = lead ++ closed ∧ make condition = statement := by
  simp only [Option.bind_eq_some_iff, Option.some.injEq]
  constructor
  · rintro ⟨_, hfirst, condition, hc, hmake⟩
    obtain ⟨lead, hl, rfl, -⟩ := keywordBlanks_eq_some_iff.mp hfirst
    exact ⟨lead, _, condition, hl, beforeWord_eq_some_iff.mp hc, rfl, hmake⟩
  · rintro ⟨lead, closed, condition, hl, hc, rfl, hmake⟩
    obtain ⟨ahead, hahead, hcondition⟩ := hl.exists_ahead hc
    exact ⟨ahead, hahead, condition, hcondition, hmake⟩

/-- The arm rule accepts the lines that open a further arm. -/
theorem readElseIf_eq_some_iff :
    readElseIf line = some statement ↔ Says line statement ∧ statement.rule = .elseIf := by
  refine Option.bind_eq_some_iff.trans ⟨?_, ?_⟩
  · rintro ⟨ahead, hfirst, hnext⟩
    obtain ⟨lead, hl, rfl, -⟩ := keywordBlanks_eq_some_iff.mp hfirst
    obtain ⟨second, closed, condition, hs, hc, rfl, rfl⟩ := closed_eq_some_iff.mp hnext
    exact ⟨.elseIf hl hs hc rfl, rfl⟩
  · rintro ⟨h, hr⟩
    cases h with
    | elseIf hl hs hc he =>
      exact ⟨_, keywordBlanks_eq_some_iff.mpr ⟨_, hl, he, hs.startsBlank_append (by decide) _⟩,
        closed_eq_some_iff.mpr ⟨_, _, _, hs, hc, rfl, rfl⟩⟩
    | _ => cases hr

/-- The rule for the last arm accepts its word alone. -/
theorem readOtherwise_eq_some_iff :
    readOtherwise line = some statement ↔ Says line statement ∧ statement.rule = .otherwise := by
  rw [readOtherwise]
  constructor
  · intro h
    split at h
    · next he =>
      cases h
      exact ⟨.otherwise (beq_iff_eq.mp he), rfl⟩
    · cases h
  · rintro ⟨h, hr⟩
    cases h with
    | otherwise he =>
      have hletters : sameLetters line "else".toList = true := beq_iff_eq.mpr he
      rw [if_pos hletters]
    | _ => cases hr

/-- The conditional rule accepts the lines that open a conditional. -/
theorem readBranch_eq_some_iff :
    readBranch line = some statement ↔ Says line statement ∧ statement.rule = .branch := by
  refine closed_eq_some_iff.trans ⟨?_, ?_⟩
  · rintro ⟨lead, closed, condition, hl, hc, he, rfl⟩
    exact ⟨.branch hl hc he, rfl⟩
  · rintro ⟨h, hr⟩
    cases h with
    | branch hl hc he => exact ⟨_, _, _, hl, hc, he, rfl⟩
    | _ => cases hr

/-- The list rule accepts the lines that open a loop over a list. -/
theorem readForEach_eq_some_iff :
    readForEach line = some statement ↔ Says line statement ∧ statement.rule = .forEach := by
  simp only [readForEach, Option.bind_eq_bind, Option.bind_eq_some_iff, Prod.exists,
    Option.pure_def, Option.some.injEq, name_eq_some_iff]
  constructor
  · rintro ⟨_, hfirst, _, hnext, item, _, ⟨hi, rfl, -⟩, _, hb, _, hin, list, rest,
      ⟨hlist, rfl, -⟩, ahead, hb', behind, hdo, _, hend, rfl⟩
    obtain ⟨lead, hl, rfl, -⟩ := keywordBlanks_eq_some_iff.mp hfirst
    obtain ⟨second, hs, rfl, -⟩ := keywordBlanks_eq_some_iff.mp hnext
    obtain ⟨gap, hg, rfl, -⟩ := blanks_eq_some_iff.mp hb
    obtain ⟨inner, hinner, rfl, -⟩ := keywordBlanks_eq_some_iff.mp hin
    refine ⟨.forEach hl hs hi ⟨gap, inner, hg, hinner, rfl⟩ hlist
      ((exists_blanks_iff "do" (by decide)).mp ⟨ahead, hb', behind, hdo, hend⟩) ?_, rfl⟩
    simp only [List.append_assoc]
  · rintro ⟨h, hr⟩
    cases h with
    | @forEach lead second item link list ending hl hs hi hk hlist hend he =>
      obtain ⟨gap, inner, hg, hinner, rfl⟩ := hk
      obtain ⟨ahead, hb, behind, hdo, hover⟩ := (exists_blanks_iff "do" (by decide)).mpr hend
      refine ⟨_, keywordBlanks_eq_some_iff.mpr ⟨_, hl, he, hs.startsBlank_append (by decide) _⟩,
        _, keywordBlanks_eq_some_iff.mpr ⟨_, hs, rfl, hi.startsBlank_append _⟩,
        item, _, ⟨hi, rfl, ?_⟩, inner ++ (list ++ ending),
        blanks_eq_some_iff.mpr ⟨gap, hg, List.append_assoc .., ?_⟩, _,
        keywordBlanks_eq_some_iff.mpr ⟨inner, hinner, rfl, hlist.startsBlank_append _⟩,
        list, ending, ⟨hlist, rfl, hend.continuesName⟩, ahead, hb, behind, hdo, (), hover, rfl⟩
      · rw [List.append_assoc]
        exact hg.continuesName_append _
      · exact hinner.startsBlank_append (by decide) _
    | _ => cases hr

/-- The loop rule accepts the lines that open a loop with a condition. -/
theorem readLoop_eq_some_iff :
    readLoop line = some statement ↔ Says line statement ∧ statement.rule = .loop := by
  refine closed_eq_some_iff.trans ⟨?_, ?_⟩
  · rintro ⟨lead, closed, condition, hl, hc, he, rfl⟩
    exact ⟨.loop hl hc he, rfl⟩
  · rintro ⟨h, hr⟩
    cases h with
    | loop hl hc he => exact ⟨_, _, _, hl, hc, he, rfl⟩
    | _ => cases hr

/-- The closing rule accepts the lines that start with the letters of its words. -/
theorem readClosing_eq_some_iff :
    readClosing line = some statement ↔ Says line statement ∧ statement.rule = .closing := by
  have hd (word : String) : (dropWord? word.toList line).isSome ↔
      ∃ spelling rest, Spells word spelling ∧ line = spelling ++ rest := by
    rw [Option.isSome_iff_exists]
    constructor
    · rintro ⟨rest, h⟩
      obtain ⟨spelling, he, hs⟩ := dropWord?_eq_some_iff.mp h
      exact ⟨spelling, rest, (beq_iff_eq.mp hs).symm, he⟩
    · rintro ⟨spelling, rest, hs, he⟩
      exact ⟨rest, dropWord?_eq_some_iff.mpr ⟨spelling, he, beq_iff_eq.mpr hs.symm⟩⟩
  rw [readClosing]
  constructor
  · intro h
    split at h
    · next hs =>
      cases h
      rw [Bool.or_eq_true, hd, hd] at hs
      rcases hs with ⟨spelling, rest, hs, he⟩ | ⟨spelling, rest, hs, he⟩
      · exact ⟨.closing (.inl hs) he, rfl⟩
      · exact ⟨.closing (.inr hs) he, rfl⟩
    · cases h
  · rintro ⟨h, hr⟩
    cases h with
    | closing hs he =>
      rw [if_pos]
      rw [Bool.or_eq_true, hd, hd]
      exact hs.imp (fun hs ↦ ⟨_, _, hs, he⟩) (fun hs ↦ ⟨_, _, hs, he⟩)
    | _ => cases hr

/-- A rule accepts exactly the lines of its statements. -/
theorem read_eq_some_iff (rule : Rule) :
    rule.read line = some statement ↔ Says line statement ∧ statement.rule = rule := by
  cases rule with
  | event => exact readEvent_eq_some_iff
  | declare => exact readDeclare_eq_some_iff
  | procedure => exact readProcedure_eq_some_iff
  | setProperty => exact readSetProperty_eq_some_iff
  | assign => exact readAssign_eq_some_iff
  | callMethod => exact readCallMethod_eq_some_iff
  | callProcedure => exact readCallProcedure_eq_some_iff
  | elseIf => exact readElseIf_eq_some_iff
  | otherwise => exact readOtherwise_eq_some_iff
  | branch => exact readBranch_eq_some_iff
  | forEach => exact readForEach_eq_some_iff
  | loop => exact readLoop_eq_some_iff
  | closing => exact readClosing_eq_some_iff

end Rule

/-! ### At most one rule accepts a line -/

namespace Rule

/-- The words that the lines of a rule can start with. -/
def words : Rule → List String
  | event => ["on", "when"]
  | declare | procedure => ["define"]
  | setProperty | assign => ["set"]
  | callMethod | callProcedure => ["call"]
  | elseIf | otherwise => ["else"]
  | branch => ["if"]
  | forEach => ["for"]
  | loop => ["while"]
  | closing => []

/-- The other rule whose lines start with the same word, if there is one. -/
def sibling : Rule → Rule
  | declare => procedure
  | procedure => declare
  | setProperty => assign
  | assign => setProperty
  | callMethod => callProcedure
  | callProcedure => callMethod
  | elseIf => otherwise
  | otherwise => elseIf
  | other => other

/-- Every rule is listed. -/
theorem mem_all (rule : Rule) : rule ∈ all := by cases rule <;> decide

private theorem eq_or_eq_sibling {first second : Rule} {word word' : String}
    (hw : word ∈ first.words) (hw' : word' ∈ second.words)
    (h : word.toList.map lowerAscii = word'.toList.map lowerAscii) :
    second = first ∨ second = first.sibling := by
  have hall : ∀ first ∈ all, ∀ word ∈ first.words, ∀ second ∈ all, ∀ word' ∈ second.words,
      word.toList.map lowerAscii = word'.toList.map lowerAscii →
      second = first ∨ second = first.sibling := by decide
  exact hall first (mem_all _) word hw second (mem_all _) word' hw' h

end Rule

/-- The name that a line starts with is one of the words of its rule. -/
theorem Says.exists_word {line : List Char} {statement : Statement} (h : Says line statement)
    (hc : statement ≠ .closing) :
    ∃ word ∈ statement.rule.words, Spells word (line.takeWhile isNameChar) := by
  have hlead {word : String} {lead rest : List Char} (hl : IsLead word lead)
      (hw : IsName word.toList) (he : line = lead ++ rest) :
      Spells word (line.takeWhile isNameChar) := he ▸ hl.spells_takeWhile hw rest
  cases h with
  | event hl _ _ _ he =>
    rcases hl with hl | hl
    · exact ⟨"on", List.mem_cons_self, hlead hl (by decide) he⟩
    · exact ⟨"when", List.mem_cons_of_mem _ List.mem_cons_self, hlead hl (by decide) he⟩
  | declare hl _ _ _ he => exact ⟨"define", List.mem_cons_self, hlead hl (by decide) he⟩
  | title hl _ he => exact ⟨"define", List.mem_cons_self, hlead hl (by decide) he⟩
  | procedure hl _ _ he => exact ⟨"define", List.mem_cons_self, hlead hl (by decide) he⟩
  | setProperty hl _ _ _ _ he => exact ⟨"set", List.mem_cons_self, hlead hl (by decide) he⟩
  | assign hl _ _ _ he => exact ⟨"set", List.mem_cons_self, hlead hl (by decide) he⟩
  | bareCall hl _ _ he => exact ⟨"call", List.mem_cons_self, hlead hl (by decide) he⟩
  | callMethod hl _ _ _ _ he => exact ⟨"call", List.mem_cons_self, hlead hl (by decide) he⟩
  | callProcedure hl _ _ he => exact ⟨"call", List.mem_cons_self, hlead hl (by decide) he⟩
  | elseIf hl _ _ he => exact ⟨"else", List.mem_cons_self, hlead hl (by decide) he⟩
  | otherwise hs =>
    refine ⟨"else", List.mem_cons_self, ?_⟩
    rwa [List.takeWhile_eq_self_iff.mpr (hs.isName (by decide)).2]
  | branch hl _ he => exact ⟨"if", List.mem_cons_self, hlead hl (by decide) he⟩
  | forEach hl _ _ _ _ _ he => exact ⟨"for", List.mem_cons_self, hlead hl (by decide) he⟩
  | loop hl _ he => exact ⟨"while", List.mem_cons_self, hlead hl (by decide) he⟩
  | closing => exact absurd rfl hc

private theorem IsLead.rest_unique {word : String} {lead lead' name name' rest rest' : List Char}
    (hl : IsLead word lead) (hl' : IsLead word lead') (hn : IsName name) (hn' : IsName name')
    (hr : continuesName rest = false) (hr' : continuesName rest' = false)
    (he : lead ++ (name ++ rest) = lead' ++ (name' ++ rest')) : rest = rest' := by
  have hfirst := keywordBlanks_eq_some_iff.mpr ⟨lead, hl, rfl, hn.startsBlank_append rest⟩
  have hfirst' := keywordBlanks_eq_some_iff.mpr ⟨lead', hl', he, hn'.startsBlank_append rest'⟩
  have hnext := name_eq_some_iff.mpr ⟨hn, rfl, hr⟩
  have hnext' := name_eq_some_iff.mpr ⟨hn', Option.some.inj (hfirst.symm.trans hfirst'), hr'⟩
  exact congrArg Prod.snd (Option.some.inj (hnext.symm.trans hnext'))

namespace Says

variable {line : List Char}

private theorem not_procedure {name value title : String} {parameters : List String}
    (h : Says line (.declare name value)) : ¬ Says line (.procedure title parameters) := by
  intro h'
  cases h with
  | @declare _ _ link value hl hn hk _ he =>
    have hr := hk.continuesName_append value
    have hblank := hk.startsBlank_append value
    cases h' with
    | @title lead' name' hl' hn' he' =>
      have hnil : line = lead' ++ (name' ++ []) := by rw [he', List.append_nil]
      rw [hl.rest_unique hl' hn hn' hr rfl (he.symm.trans hnil)] at hblank
      cases hblank
    | procedure hl' hn' hg he' =>
      rw [hl.rest_unique hl' hn hn' hr hg.continuesName (he.symm.trans he'), hg.2] at hblank
      cases hblank

private theorem not_assign {component property value target other : String}
    (h : Says line (.setProperty component property value)) :
    ¬ Says line (.assign target other) := by
  intro h'
  cases h with
  | setProperty hl hc _ _ _ he =>
    cases h' with
    | @assign _ _ link value hl' hn' hk' _ he' =>
      have hblank := hk'.startsBlank_append value
      rw [← hl.rest_unique hl' hc hn' rfl (hk'.continuesName_append _) (he.symm.trans he')]
        at hblank
      cases hblank

private theorem not_callProcedure {component method name : String} {given values : List String}
    (h : Says line (.callMethod component method given)) :
    ¬ Says line (.callProcedure name values) := by
  intro h'
  cases h' with
  | callProcedure hl' hn' hg he' =>
    cases h with
    | bareCall hl hc _ he =>
      have hrest := hl.rest_unique hl' hc hn' rfl hg.continuesName (he.symm.trans he')
      rw [hg.2] at hrest
      cases hrest
    | callMethod hl hc _ _ _ he =>
      have hrest := hl.rest_unique hl' hc hn' rfl hg.continuesName (he.symm.trans he')
      rw [hg.2] at hrest
      cases hrest

private theorem not_otherwise {condition : String} (h : Says line (.elseIf condition)) :
    ¬ Says line .otherwise := by
  intro h'
  cases h' with
  | otherwise hs =>
    cases h with
    | elseIf hl _ _ he =>
      obtain ⟨spelling, gap, -, hg, rfl⟩ := hl
      obtain ⟨c, hc⟩ := List.exists_mem_of_ne_nil gap hg.1
      have hm : c ∈ line := by
        rw [he]
        simp [hc]
      have hblank := hg.2 c hc
      rw [isBlank_of_isNameChar ((hs.isName (by decide)).2 c hm)] at hblank
      cases hblank

/-- A line says at most one thing, apart from closing blocks. -/
theorem unique {first second : Statement} (h : Says line first) (h' : Says line second)
    (hc : first ≠ .closing) (hc' : second ≠ .closing) : first = second := by
  obtain ⟨word, hw, hs⟩ := h.exists_word hc
  obtain ⟨word', hw', hs'⟩ := h'.exists_word hc'
  have hrule : first.rule = second.rule := by
    rcases Rule.eq_or_eq_sibling hw hw' (hs.symm.trans hs') with hsame | hsibling
    · exact hsame.symm
    · cases first with
      | declare => cases second with
        | procedure => exact absurd h' h.not_procedure
        | _ => cases hsibling
      | procedure => cases second with
        | declare => exact absurd h h'.not_procedure
        | _ => cases hsibling
      | setProperty => cases second with
        | assign => exact absurd h' h.not_assign
        | _ => cases hsibling
      | assign => cases second with
        | setProperty => exact absurd h h'.not_assign
        | _ => cases hsibling
      | callMethod => cases second with
        | callProcedure => exact absurd h' h.not_callProcedure
        | _ => cases hsibling
      | callProcedure => cases second with
        | callMethod => exact absurd h h'.not_callProcedure
        | _ => cases hsibling
      | elseIf => cases second with
        | otherwise => exact absurd h' h.not_otherwise
        | _ => cases hsibling
      | otherwise => cases second with
        | elseIf => exact absurd h h'.not_otherwise
        | _ => cases hsibling
      | _ => exact hsibling.symm
  have hread := (Rule.read_eq_some_iff first.rule).mpr ⟨h, rfl⟩
  have hread' := (Rule.read_eq_some_iff first.rule).mpr ⟨h', hrule.symm⟩
  exact Option.some.inj (hread.symm.trans hread')

end Says

/-! ### What a line says -/

namespace Statement

variable {line : String} {statement : Statement}

/-- What a line is read as, some rule makes of it. -/
theorem says_of_read (h : read line = some statement) : Says line.toList statement := by
  obtain ⟨rule, -, hr⟩ := List.exists_of_findSome?_eq_some h
  exact ((Rule.read_eq_some_iff rule).mp hr).1

/-- A line is read as nothing only if it says nothing. -/
theorem isSome_read (h : Says line.toList statement) : (read line).isSome := by
  rw [read, List.findSome?_isSome_iff]
  exact ⟨statement.rule, Rule.mem_all _,
    Option.isSome_of_eq_some ((Rule.read_eq_some_iff _).mpr ⟨h, rfl⟩)⟩

/-- The rule for closing lines comes last, so a line is read as one only if no other rule
accepts it. -/
theorem eq_closing_of_read (h : read line = some .closing) (hs : Says line.toList statement) :
    statement = .closing := by
  obtain ⟨before, rule, behind, hall, hr, hnone⟩ := List.findSome?_eq_some_iff.mp h
  cases ((Rule.read_eq_some_iff rule).mp hr).2
  have hnodup : (before ++ Rule.closing :: behind).Nodup := hall ▸ by decide
  have hlast : (before ++ Rule.closing :: behind).getLast? = some .closing := hall ▸ by decide
  have hbehind : behind = [] := by
    rcases List.eq_nil_or_concat behind with hnil | ⟨others, last, rfl⟩
    · exact hnil
    · rw [List.concat_eq_append] at hlast hnodup
      rw [← List.cons_append, ← List.append_assoc, List.getLast?_concat] at hlast
      simp [Option.some.inj hlast, List.nodup_append] at hnodup
  have hread := (Rule.read_eq_some_iff statement.rule).mpr ⟨hs, rfl⟩
  have hmem := Rule.mem_all statement.rule
  rw [hall, hbehind, List.mem_append, List.mem_singleton] at hmem
  rcases hmem with hmem | hmem
  · rw [hnone _ hmem] at hread
    cases hread
  · cases statement with
    | closing => rfl
    | _ => cases hmem

/-- A line that says something other than closing blocks is read as that. -/
theorem read_of_saying (h : Says line.toList statement) (hc : statement ≠ .closing) :
    read line = some statement := by
  obtain ⟨found, hf⟩ := Option.isSome_iff_exists.mp (isSome_read h)
  by_cases hfc : found = .closing
  · rw [hfc] at hf
    exact absurd (eq_closing_of_read hf h) hc
  · rw [hf, (says_of_read hf).unique h hfc hc]

end Statement

/-- Lines are read by their grammar. A line is read as a statement exactly when it says the
statement; a line that closes blocks says nothing else. Every other line is refused. -/
theorem read_exact (line : String) :
    (∀ statement, Statement.read line = some statement ↔ Says line.toList statement ∧
      (statement = .closing → ∀ other, Says line.toList other → other = .closing)) ∧
    (Statement.read line = none ↔ ∀ statement, ¬ Says line.toList statement) := by
  refine ⟨fun statement ↦ ⟨?_, ?_⟩, ?_⟩
  · intro h
    refine ⟨Statement.says_of_read h, ?_⟩
    rintro rfl other ho
    exact Statement.eq_closing_of_read h ho
  · rintro ⟨h, hc⟩
    by_cases hs : statement = .closing
    · obtain ⟨found, hf⟩ := Option.isSome_iff_exists.mp (Statement.isSome_read h)
      rw [hf, hc hs found (Statement.says_of_read hf), hs]
    · exact Statement.read_of_saying h hs
  · constructor
    · intro h statement hs
      have hsome := Statement.isSome_read hs
      rw [h] at hsome
      cases hsome
    · intro h
      rw [Option.eq_none_iff_forall_ne_some]
      intro statement hr
      exact h statement (Statement.says_of_read hr)

end Blockwright.Script
