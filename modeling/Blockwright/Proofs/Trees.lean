import Blockwright.Proofs.Lexing

/-!
# Trees are built from their tokens

A tree without faults is spelled by tokens, and these tokens build the tree again. So a text that
is written in any way with the tokens of a tree holds that tree and nothing else.
-/

namespace Blockwright.Json

/-! ### Spelling -/

namespace Tree

mutual

/-- Whether a tree is free of faults. -/
def isWhole : Tree → Bool
  | list items ending => ending.isNone && itemsWhole items
  | object members ending => ending.isNone && membersWhole members
  | broken _ => false
  | _ => true

/-- Whether items are free of faults. -/
def itemsWhole : List Tree → Bool
  | [] => true
  | tree :: items => isWhole tree && itemsWhole items

/-- Whether the values of members are free of faults. -/
def membersWhole : List (Option String × Tree) → Bool
  | [] => true
  | (_, tree) :: members => isWhole tree && membersWhole members

end

mutual

/-- The tokens that spell a tree. -/
def spelling : Tree → List Token
  | null => [.null]
  | bool b => [.bool b]
  | number n => [.number n]
  | text content => [.text content]
  | list items _ => .openList :: (itemsSpelling items ++ [.closeList])
  | object members _ => .openObject :: (membersSpelling members ++ [.closeObject])
  | broken _ => []

/-- The tokens that spell items, with commas between. -/
def itemsSpelling : List Tree → List Token
  | [] => []
  | tree :: items =>
    spelling tree ++ if items.isEmpty then [] else .comma :: itemsSpelling items

/-- The tokens that spell members, with commas between. -/
def membersSpelling : List (Option String × Tree) → List Token
  | [] => []
  | (key, tree) :: members =>
    .text key :: .colon :: (spelling tree ++
      if members.isEmpty then [] else .comma :: membersSpelling members)

end

/-- A text that holds a tree: it is written with the tree's tokens. -/
structure Written (tree : Tree) (text : List Char) : Prop where
  isWhole : tree.isWhole
  lexes : Lexes text tree.spelling

/-- A tree without faults is passed over. -/
theorem skip_of_isWhole {tree : Tree} (h : tree.isWhole) : tree.skip = .ok () := by
  cases tree with
  | list items ending =>
    cases ending with
    | none => rfl
    | some breach => simp [isWhole] at h
  | object members ending =>
    cases ending with
    | none => rfl
    | some breach => simp [isWhole] at h
  | broken breach => simp [isWhole] at h
  | null | bool | number | text => rfl

end Tree

/-! ### Building the tree -/

namespace Builder

/-- The next token is given where a value has to stand, unless it closes a list. -/
def AwaitsValue (b : Builder) (opened : List Opened) : Prop :=
  ∀ token, token ≠ .closeList → b.feed token = feedValue opened token

/-- The next text is taken for a key. -/
def AwaitsKey (b : Builder) (members : List (Option String × Tree)) (opened : List Opened) :
    Prop := ∀ key, b.feed (.text key) = .colon members key opened

private theorem awaitsValue_value (opened : List Opened) : (value opened).AwaitsValue opened :=
  fun _ _ ↦ rfl

private theorem awaitsKey_firstKey (opened : List Opened) : (firstKey opened).AwaitsKey [] opened :=
  fun _ ↦ rfl

private theorem awaitsKey_nextKey (members : List (Option String × Tree)) (opened : List Opened) :
    (nextKey members opened).AwaitsKey members opened := fun _ ↦ rfl

private theorem awaitsValue_firstItem (opened : List Opened) :
    (firstItem opened).AwaitsValue (.list [] :: opened) := by
  intro token ht
  rw [feed]
  exact ht

open Blockwright.Json.Tree

mutual

private theorem foldl_spelling (tree : Tree) (h : tree.isWhole) {b : Builder} {opened : List Opened}
    (hb : b.AwaitsValue opened) (more : List Token) :
    (tree.spelling ++ more).foldl feed b = more.foldl feed (.after tree opened) := by
  cases tree with
  | null | bool | number | text =>
    rw [spelling, List.singleton_append, List.foldl_cons, hb _ Token.noConfusion]
    rfl
  | broken breach => cases h
  | list items ending =>
    rw [Tree.isWhole, Bool.and_eq_true, Option.isNone_iff_eq_none] at h
    obtain ⟨rfl, hitems⟩ := h
    rw [spelling, List.cons_append, List.foldl_cons, hb _ Token.noConfusion, List.append_assoc]
    cases items with
    | nil => rfl
    | cons tree items =>
      exact foldl_itemsSpelling (tree :: items) hitems (List.cons_ne_nil _ _)
        (awaitsValue_firstItem opened) more
  | object members ending =>
    rw [Tree.isWhole, Bool.and_eq_true, Option.isNone_iff_eq_none] at h
    obtain ⟨rfl, hmembers⟩ := h
    rw [spelling, List.cons_append, List.foldl_cons, hb _ Token.noConfusion, List.append_assoc]
    cases members with
    | nil => rfl
    | cons member members =>
      exact foldl_membersSpelling (member :: members) hmembers (List.cons_ne_nil _ _)
        (awaitsKey_firstKey opened) more

private theorem foldl_itemsSpelling (items : List Tree) (h : itemsWhole items) (hne : items ≠ [])
    {b : Builder} {done : List Tree} {opened : List Opened}
    (hb : b.AwaitsValue (.list done :: opened)) (more : List Token) :
    (itemsSpelling items ++ .closeList :: more).foldl feed b =
      more.foldl feed (.after (.list (done.reverse ++ items) none) opened) := by
  cases items with
  | nil => exact absurd rfl hne
  | cons tree items =>
    rw [itemsWhole, Bool.and_eq_true] at h
    rw [itemsSpelling, List.append_assoc, foldl_spelling tree h.1 hb]
    cases items with
    | nil =>
      show more.foldl feed (.after (.list (tree :: done).reverse none) opened) = _
      rw [List.reverse_cons]
    | cons next items =>
      have hrest := foldl_itemsSpelling (next :: items) h.2 (List.cons_ne_nil _ _)
        (awaitsValue_value (.list (tree :: done) :: opened)) more
      rw [List.reverse_cons, List.append_assoc] at hrest
      exact hrest

private theorem foldl_membersSpelling (members : List (Option String × Tree))
    (h : membersWhole members) (hne : members ≠ []) {b : Builder}
    {done : List (Option String × Tree)} {opened : List Opened} (hb : b.AwaitsKey done opened)
    (more : List Token) :
    (membersSpelling members ++ .closeObject :: more).foldl feed b =
      more.foldl feed (.after (.object (done.reverse ++ members) none) opened) := by
  cases members with
  | nil => exact absurd rfl hne
  | cons member members =>
    obtain ⟨key, tree⟩ := member
    rw [membersWhole, Bool.and_eq_true] at h
    rw [membersSpelling, List.cons_append, List.cons_append, List.foldl_cons, List.foldl_cons, hb,
      List.append_assoc]
    have hvalue := foldl_spelling tree h.1 (awaitsValue_value (.object done key :: opened))
    cases members with
    | nil =>
      refine (hvalue _).trans ?_
      show more.foldl feed (.after (.object (_ :: done).reverse none) opened) = _
      rw [List.reverse_cons]
    | cons next members =>
      have hrest := foldl_membersSpelling (next :: members) h.2 (List.cons_ne_nil _ _)
        (awaitsKey_nextKey ((key, tree) :: done) opened) more
      rw [List.reverse_cons, List.append_assoc] at hrest
      exact (hvalue _).trans hrest

end

end Builder

private theorem Document.read_of_tokens {tree : Tree} (h : tree.isWhole) {text : List Char}
    (ht : tokens text = tree.spelling) : Document.read text = ⟨tree, false⟩ := by
  rw [Document.read, ht, ← List.append_nil tree.spelling, Builder.start,
    Builder.foldl_spelling tree h (Builder.awaitsValue_value [])]
  rfl

/-- A text holds the tree that it is written for and nothing else. -/
theorem Tree.Written.read_eq {tree : Tree} {text : List Char} (h : tree.Written text) :
    Document.read text = ⟨tree, false⟩ :=
  Document.read_of_tokens h.isWhole h.lexes.tokens_eq

end Blockwright.Json
