/-!
# Comparison that ignores the case of ASCII letters

Keywords and truth values are compared letter by letter, with `A` to `Z` read as `a` to `z`.
Every other character, accented letters included, stands only for itself.
-/

namespace Blockwright.Text

/-- The lower-case form of an ASCII letter; any other character is kept. -/
def lowerAscii (c : Char) : Char :=
  if 'A' ≤ c ∧ c ≤ 'Z' then Char.ofNat (c.toNat + 32) else c

/-- The upper-case form of an ASCII letter; any other character is kept. -/
def upperAscii (c : Char) : Char :=
  if 'a' ≤ c ∧ c ≤ 'z' then Char.ofNat (c.toNat - 32) else c

/-- Whether two texts agree up to the case of ASCII letters. -/
def sameLetters (a b : List Char) : Bool := a.map lowerAscii == b.map lowerAscii

/-- What follows `word` in a text that starts with it, up to the case of ASCII letters. -/
def dropWord? : (word text : List Char) → Option (List Char)
  | [], text => some text
  | _ :: _, [] => none
  | w :: word, c :: text =>
    if lowerAscii w = lowerAscii c then dropWord? word text else none

/-- A successful match splits the text into a spelling of the word and the rest. -/
theorem dropWord?_eq_some_iff {word text rest : List Char} :
    dropWord? word text = some rest ↔
      ∃ spelling, text = spelling ++ rest ∧ sameLetters word spelling = true := by
  induction word generalizing text with
  | nil =>
    constructor
    · intro h
      exact ⟨[], by simpa [dropWord?] using h, rfl⟩
    · rintro ⟨spelling, rfl, h⟩
      have : spelling = [] := by
        cases spelling with
        | nil => rfl
        | cons => simp [sameLetters] at h
      simp [this, dropWord?]
  | cons w word ih =>
    cases text with
    | nil =>
      constructor
      · intro h
        simp [dropWord?] at h
      · rintro ⟨spelling, h, hs⟩
        have : spelling = [] := by
          cases spelling with
          | nil => rfl
          | cons => simp at h
        simp [this, sameLetters] at hs
    | cons c text =>
      rw [dropWord?]
      split
      · next hc =>
        rw [ih]
        constructor
        · rintro ⟨spelling, rfl, hs⟩
          refine ⟨c :: spelling, rfl, ?_⟩
          simp only [sameLetters, List.map_cons, beq_iff_eq, List.cons.injEq] at hs ⊢
          exact ⟨hc, hs⟩
        · rintro ⟨spelling, h, hs⟩
          cases spelling with
          | nil => simp [sameLetters] at hs
          | cons d spelling =>
            simp only [List.cons_append, List.cons.injEq] at h
            simp only [sameLetters, List.map_cons, beq_iff_eq, List.cons.injEq] at hs ⊢
            exact ⟨spelling, h.2, hs.2⟩
      · next hc =>
        constructor
        · intro h
          cases h
        · rintro ⟨spelling, h, hs⟩
          cases spelling with
          | nil => simp [sameLetters] at hs
          | cons d spelling =>
            simp only [List.cons_append, List.cons.injEq] at h
            simp only [sameLetters, List.map_cons, beq_iff_eq, List.cons.injEq] at hs
            exact absurd (h.1 ▸ hs.1) hc

end Blockwright.Text
