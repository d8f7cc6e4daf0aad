import Blockwright.Proofs.LineRules
import Mathlib.Data.List.Basic

/-!
# Rules in any order

The name that a line starts with leaves two rules at most, and what follows the next name leaves one
of them. Only the rule for closing lines looks at letters instead of names, and of all lines with a
meaning of their own it accepts just the arms of conditionals. So the rules may be tried in every
order in which closing lines come behind the arms, and in no other.
-/

namespace Blockwright.Script

open Blockwright.Text

/-! ### Rules that accept one line -/

private theorem Statement.rule_eq_closing_iff {statement : Statement} :
    statement.rule = .closing ↔ statement = .closing := by
  cases statement <;> simp [rule]

namespace Rule

variable {line : String} {first second rule : Rule}

/-- Whether a rule accepts a line. -/
def accepts (rule : Rule) (line : String) : Bool := (rule.read line.toList).isSome

/-- A rule accepts the lines that say one of its statements. -/
theorem accepts_iff : rule.accepts line ↔
    ∃ statement, Says line.toList statement ∧ statement.rule = rule := by
  rw [accepts, Option.isSome_iff_exists]
  simp only [read_eq_some_iff]

/-- No two rules accept one line, apart from the rule for closing lines. -/
theorem eq_of_accepts (h : first.accepts line) (h' : second.accepts line)
    (hc : first ≠ .closing) (hc' : second ≠ .closing) : first = second := by
  obtain ⟨statement, hs, rfl⟩ := accepts_iff.mp h
  obtain ⟨other, ho, rfl⟩ := accepts_iff.mp h'
  rw [Ne, Statement.rule_eq_closing_iff] at hc hc'
  rw [hs.unique ho hc hc']

private theorem eq_arm_of_prefix {word letters : String} (hw : word ∈ rule.words)
    (hl : letters = "else" ∨ letters = "end")
    (h : letters.toList.map lowerAscii <+: word.toList.map lowerAscii) :
    rule = .elseIf ∨ rule = .otherwise := by
  have hall : ∀ rule ∈ all, ∀ word ∈ rule.words, ∀ letters ∈ ["else", "end"],
      (letters.toList.map lowerAscii).isPrefixOf (word.toList.map lowerAscii) →
      rule = .elseIf ∨ rule = .otherwise := by decide
  exact hall rule (mem_all rule) word hw letters (by simpa using hl)
    (List.isPrefixOf_iff_prefix.mpr h)

/-- Of the lines of other rules, the rule for closing lines accepts only arms. -/
theorem eq_arm_of_accepts (h : rule.accepts line) (hc : Rule.closing.accepts line)
    (hr : rule ≠ .closing) : rule = .elseIf ∨ rule = .otherwise := by
  obtain ⟨statement, hs, rfl⟩ := accepts_iff.mp h
  obtain ⟨other, hclosing, hrule⟩ := accepts_iff.mp hc
  rw [Statement.rule_eq_closing_iff] at hrule
  subst hrule
  rw [Ne, Statement.rule_eq_closing_iff] at hr
  obtain ⟨word, hw, hspells⟩ := hs.exists_word hr
  -- The line's first name starts with the letters that the rule for closing lines looks for.
  have hstarts {letters : String} {spelling rest : List Char} (hl : Spells letters spelling)
      (hn : IsName letters.toList) (he : line.toList = spelling ++ rest) :
      letters.toList.map lowerAscii <+: word.toList.map lowerAscii := by
    rw [he, List.takeWhile_append_of_pos (hl.isName hn).2, Spells, List.map_append, hl] at hspells
    exact ⟨_, hspells⟩
  cases hclosing with
  | closing hletters he =>
    rcases hletters with hl | hl
    · exact eq_arm_of_prefix hw (.inl rfl) (hstarts hl (by decide) he)
    · exact eq_arm_of_prefix hw (.inr rfl) (hstarts hl (by decide) he)

end Rule

/-! ### Positions in a list -/

section positions

variable {α : Type} [DecidableEq α] {a b : α} {before behind : List α}

private theorem mem_of_idxOf_lt
    (h : (before ++ b :: behind).idxOf a < (before ++ b :: behind).idxOf b) : a ∈ before := by
  by_contra ha
  rw [List.idxOf_append_of_notMem ha] at h
  by_cases hb : b ∈ before
  · rw [List.idxOf_append_of_mem hb] at h
    have := List.idxOf_lt_length_of_mem hb
    omega
  · rw [List.idxOf_append_of_notMem hb, List.idxOf_cons_self] at h
    omega

private theorem idxOf_lt_of_notMem (hne : a ≠ b) (hb : b ∉ before) :
    (before ++ a :: behind).idxOf a < (before ++ a :: behind).idxOf b := by
  rw [List.idxOf_append_of_notMem hb, List.idxOf_cons_ne _ hne]
  by_cases ha : a ∈ before
  · rw [List.idxOf_append_of_mem ha]
    have := List.idxOf_lt_length_of_mem ha
    omega
  · rw [List.idxOf_append_of_notMem ha, List.idxOf_cons_self]
    omega

end positions

/-! ### Rules tried in another order -/

namespace Statement

variable {line : String} {rules : List Rule}

/-- What the first of some rules that accepts a line makes of it. -/
def readBy (rules : List Rule) (line : String) : Option Statement :=
  rules.findSome? (fun rule ↦ rule.read line.toList)

/-- What a line is read as, its rule makes of it, and no rule tried before accepts it. -/
theorem readBy_eq_some_iff {statement : Statement} : readBy rules line = some statement ↔
    Says line.toList statement ∧ ∃ before behind, rules = before ++ statement.rule :: behind ∧
      ∀ rule ∈ before, rule.accepts line = false := by
  simp only [readBy, List.findSome?_eq_some_iff, Rule.read_eq_some_iff, Rule.accepts,
    Option.isSome_eq_false_iff, Option.isNone_iff_eq_none]
  constructor
  · rintro ⟨before, _, behind, he, ⟨hs, rfl⟩, hnone⟩
    exact ⟨hs, before, behind, he, hnone⟩
  · rintro ⟨hs, before, behind, he, hnone⟩
    exact ⟨before, _, behind, he, ⟨hs, rfl⟩, hnone⟩

private theorem isSome_readBy (hall : ∀ rule, rule ∈ rules) {statement : Statement}
    (h : Says line.toList statement) : (readBy rules line).isSome := by
  rw [readBy, List.findSome?_isSome_iff]
  exact ⟨statement.rule, hall _, Rule.accepts_iff.mpr ⟨statement, h, rfl⟩⟩

section order

variable (hall : ∀ rule, rule ∈ rules) (hfurther : rules.idxOf .elseIf < rules.idxOf .closing)
  (hlast : rules.idxOf .otherwise < rules.idxOf .closing)

include hall hfurther hlast

/-- With closing lines behind arms, a line is read as what it says, and as a closing line only if it
says nothing else. -/
theorem readBy_of_saying {statement : Statement} (h : Says line.toList statement)
    (hc : statement = .closing → ∀ other, Says line.toList other → other = .closing) :
    readBy rules line = some statement := by
  obtain ⟨found, hfound⟩ := Option.isSome_iff_exists.mp (isSome_readBy hall h)
  obtain ⟨hsaid, before, behind, he, hnone⟩ := readBy_eq_some_iff.mp hfound
  rw [hfound]
  by_cases hs : statement = .closing
  · rw [hs, hc hs found hsaid]
  by_cases hf : found = .closing
  · -- Only an arm is a closing line too, and the rules for arms were tried before.
    subst hf
    have haccepts : statement.rule.accepts line := Rule.accepts_iff.mpr ⟨statement, h, rfl⟩
    have hclosing : Rule.closing.accepts line := Rule.accepts_iff.mpr ⟨.closing, hsaid, rfl⟩
    have hbefore : statement.rule ∈ before := by
      rw [he] at hfurther hlast
      have hrule : statement.rule ≠ .closing := mt rule_eq_closing_iff.mp hs
      rcases Rule.eq_arm_of_accepts haccepts hclosing hrule with harm | harm
      · rw [harm]
        exact mem_of_idxOf_lt hfurther
      · rw [harm]
        exact mem_of_idxOf_lt hlast
    rw [hnone _ hbefore] at haccepts
    cases haccepts
  · rw [hsaid.unique h hf hs]

/-- All rules read a line alike in every order in which closing lines come behind arms. -/
theorem readBy_eq_read : readBy rules line = read line := by
  cases hread : read line with
  | some statement =>
    apply readBy_of_saying hall hfurther hlast (says_of_read hread)
    rintro rfl other ho
    exact eq_closing_of_read hread ho
  | none =>
    rw [Option.eq_none_iff_forall_ne_some]
    intro statement hs
    have hsome := isSome_read (readBy_eq_some_iff.mp hs).1
    rw [hread] at hsome
    cases hsome

end order

/-- A rule whose statement is read comes before closing lines, if the line is one too. -/
theorem idxOf_rule_lt {statement : Statement} (h : readBy rules line = some statement)
    (hs : statement ≠ .closing) (hc : Rule.closing.accepts line) :
    rules.idxOf statement.rule < rules.idxOf .closing := by
  obtain ⟨-, before, behind, rfl, hnone⟩ := readBy_eq_some_iff.mp h
  apply idxOf_lt_of_notMem (mt rule_eq_closing_iff.mp hs)
  intro hbefore
  rw [hnone _ hbefore] at hc
  cases hc

end Statement

/-- The order of the rules matters for closing lines only. Of the other rules no two accept one
line, and the rule for closing lines shares a line with those for the arms of conditionals alone. So
all rules in another order read every line as it is read if and only if the rule for closing lines
comes behind both of these. -/
theorem Rule.order_exact :
    (∀ line : String,
      (∀ first second : Rule, first.accepts line → second.accepts line →
        first ≠ .closing → second ≠ .closing → first = second) ∧
      ∀ rule : Rule, rule.accepts line → Rule.closing.accepts line → rule ≠ .closing →
        rule = .elseIf ∨ rule = .otherwise) ∧
    ∀ rules : List Rule, rules.Perm Rule.all →
      ((∀ line, Statement.readBy rules line = Statement.read line) ↔
        rules.idxOf .elseIf < rules.idxOf .closing ∧
          rules.idxOf .otherwise < rules.idxOf .closing) := by
  refine ⟨fun line ↦ ⟨fun _ _ ↦ eq_of_accepts, fun _ ↦ eq_arm_of_accepts⟩, ?_⟩
  intro rules hperm
  constructor
  · intro h
    constructor
    · have hread := (h "else if x then").trans (show _ = some (.elseIf "x") by decide)
      exact Statement.idxOf_rule_lt hread (by decide) (by decide)
    · have hread := (h "else").trans (show _ = some .otherwise by decide)
      exact Statement.idxOf_rule_lt hread (by decide) (by decide)
  · rintro ⟨hfurther, hlast⟩ line
    exact Statement.readBy_eq_read (fun rule ↦ hperm.mem_iff.mpr (mem_all rule)) hfurther hlast

end Blockwright.Script
