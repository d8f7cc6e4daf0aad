import Blockwright.Proofs.Trees

/-!
# Written values are read back

The text of a value holds the tokens that spell the value, and those tokens build the value's tree.
Reading the tree gives the value with the members of its objects in the order of their keys, or,
if its brackets are nested too deep, one fault.
-/

namespace Blockwright.Json

/-! ### Spelling -/

/-- The natural number that a number is, or zero. -/
def Number.natural : Number → Nat
  | integer n => n.toNat
  | real .. => 0

/-- A natural number of at most 64 bits. -/
def Number.IsNatural (n : Number) : Prop := n = .integer n.natural ∧ n.natural < Nat.pow 2 64

namespace Value

mutual

/-- A value whose numbers are natural numbers of at most 64 bits. -/
def IsPlain : Value → Prop
  | number n => n.IsNatural
  | list items => ItemsPlain items
  | object members => MembersPlain members
  | _ => True

/-- Items whose numbers are natural numbers of at most 64 bits. -/
def ItemsPlain : List Value → Prop
  | [] => True
  | value :: items => IsPlain value ∧ ItemsPlain items

/-- Members whose numbers are natural numbers of at most 64 bits. -/
def MembersPlain : List (String × Value) → Prop
  | [] => True
  | (_, value) :: members => IsPlain value ∧ MembersPlain members

end

mutual

/-- The tokens that spell a plain value. -/
def spelling : Value → List Token
  | null => [.null]
  | bool b => [.bool b]
  | number n => [.number (naturalNumeral n.natural)]
  | text content => [.text (some content)]
  | list items => .openList :: (itemsSpelling items ++ [.closeList])
  | object members => .openObject :: (membersSpelling members ++ [.closeObject])

/-- The tokens that spell items, with commas between. -/
def itemsSpelling : List Value → List Token
  | [] => []
  | value :: items =>
    spelling value ++ if items.isEmpty then [] else .comma :: itemsSpelling items

/-- The tokens that spell members, with commas between. -/
def membersSpelling : List (String × Value) → List Token
  | [] => []
  | (key, value) :: members =>
    .text (some key) :: .colon :: (spelling value ++
      if members.isEmpty then [] else .comma :: membersSpelling members)

end

/-- Values are plain together. -/
theorem itemsPlain_map {α : Type} {write : α → Value} {parts : List α}
    (h : ∀ part ∈ parts, (write part).IsPlain) : ItemsPlain (parts.map write) := by
  induction parts with
  | nil => trivial
  | cons part parts ih =>
    exact ⟨h part List.mem_cons_self, ih (fun other ho ↦ h other (List.mem_cons_of_mem _ ho))⟩

/-- Members with plain values are plain together. -/
theorem membersPlain_map {α : Type} {key : α → String} {write : α → Value} {parts : List α}
    (h : ∀ part ∈ parts, (write part).IsPlain) :
    MembersPlain (parts.map (fun part ↦ (key part, write part))) := by
  induction parts with
  | nil => trivial
  | cons part parts ih =>
    exact ⟨h part List.mem_cons_self, ih (fun other ho ↦ h other (List.mem_cons_of_mem _ ho))⟩

/-! ### Building the tree -/

mutual

/-- The tree of a plain value. -/
def tree : Value → Tree
  | null => .null
  | bool b => .bool b
  | number n => .number (naturalNumeral n.natural)
  | text content => .text (some content)
  | list items => .list (itemTrees items) none
  | object members => .object (memberTrees members) none

/-- The trees of plain items. -/
def itemTrees : List Value → List Tree
  | [] => []
  | value :: items => tree value :: itemTrees items

/-- The trees of plain members. -/
def memberTrees : List (String × Value) → List (Option String × Tree)
  | [] => []
  | (key, value) :: members => (some key, tree value) :: memberTrees members

end

/-- The trees of values are those of each. -/
theorem itemTrees_map {α : Type} (write : α → Value) (parts : List α) :
    itemTrees (parts.map write) = parts.map (fun part ↦ (write part).tree) := by
  induction parts with
  | nil => rfl
  | cons part parts ih => rw [List.map_cons, itemTrees, ih, List.map_cons]

/-- The trees of members are those of each. -/
theorem memberTrees_map {α : Type} (key : α → String) (write : α → Value) (parts : List α) :
    memberTrees (parts.map (fun part ↦ (key part, write part))) =
      parts.map (fun part ↦ (some (key part), (write part).tree)) := by
  induction parts with
  | nil => rfl
  | cons part parts ih => rw [List.map_cons, memberTrees, ih, List.map_cons]

mutual

private theorem spelling_tree (v : Value) : v.tree.spelling = v.spelling := by
  cases v with
  | null | bool | number | text => rfl
  | list items => rw [tree, Tree.spelling, itemsSpelling_itemTrees items, spelling]
  | object members => rw [tree, Tree.spelling, membersSpelling_memberTrees members, spelling]

private theorem itemsSpelling_itemTrees (items : List Value) :
    Tree.itemsSpelling (itemTrees items) = itemsSpelling items := by
  cases items with
  | nil => rfl
  | cons value items =>
    have hempty : (itemTrees items).isEmpty = items.isEmpty := by cases items <;> rfl
    rw [itemTrees, Tree.itemsSpelling, spelling_tree value, itemsSpelling_itemTrees items, hempty,
      itemsSpelling]

private theorem membersSpelling_memberTrees (members : List (String × Value)) :
    Tree.membersSpelling (memberTrees members) = membersSpelling members := by
  cases members with
  | nil => rfl
  | cons member members =>
    obtain ⟨key, value⟩ := member
    have hempty : (memberTrees members).isEmpty = members.isEmpty := by cases members <;> rfl
    rw [memberTrees, Tree.membersSpelling, spelling_tree value,
      membersSpelling_memberTrees members, hempty, membersSpelling]

end

mutual

private theorem isWhole_tree (v : Value) : v.tree.isWhole := by
  cases v with
  | null | bool | number | text => rfl
  | list items => exact itemsWhole_itemTrees items
  | object members => exact membersWhole_memberTrees members

private theorem itemsWhole_itemTrees (items : List Value) : Tree.itemsWhole (itemTrees items) := by
  cases items with
  | nil => rfl
  | cons value items =>
    exact Bool.and_eq_true_iff.mpr ⟨isWhole_tree value, itemsWhole_itemTrees items⟩

private theorem membersWhole_memberTrees (members : List (String × Value)) :
    Tree.membersWhole (memberTrees members) := by
  cases members with
  | nil => rfl
  | cons member members =>
    exact Bool.and_eq_true_iff.mpr ⟨isWhole_tree member.2, membersWhole_memberTrees members⟩

end

end Value

/-! ### Writing -/

private theorem Lexes.token {token : Token} {cs rest : List Char} {tokens : List Token}
    (spelled : token.Spelled cs) (ends : token.Ends rest) (others : Lexes rest tokens) :
    Lexes (cs ++ rest) (token :: tokens) :=
  .cons (List.forall_mem_nil _) spelled ends others

private theorem Lexes.gap {gap cs : List Char} {tokens : List Token} (hg : ∀ c ∈ gap, isGap c)
    (h : Lexes cs tokens) : Lexes (gap ++ cs) tokens := by
  cases h with
  | nil blanks => exact .nil (List.forall_mem_append.mpr ⟨hg, blanks⟩)
  | cons blanks spelled ends others =>
    rw [← List.append_assoc]
    exact .cons (List.forall_mem_append.mpr ⟨hg, blanks⟩) spelled ends others

private theorem isGap_lineBreak (level : Nat) : ∀ c ∈ lineBreak level, isGap c := by
  intro c hc
  rcases List.mem_cons.mp hc with rfl | hc
  · rfl
  · rw [List.eq_of_mem_replicate hc]
    rfl

private theorem spelled_writtenText (s : String) :
    (Token.text (some s)).Spelled (writtenText s) := by
  have hspelled := Token.Spelled.text (spells_flatMap_escapeChar s.toList)
  rw [Option.map_some, String.ofList_toList] at hspelled
  exact hspelled

namespace Value

private theorem lexes_scalar {v : Value} (h : v.IsPlain) (hd : v.depth = 0) {rest : List Char}
    {more : List Token} (hr : Lexes rest more) (he : endsNumber rest) :
    Lexes (v.scalar ++ rest) (v.spelling ++ more) := by
  cases v with
  | null => exact .token .null trivial hr
  | bool b =>
    cases b with
    | true => exact .token .true trivial hr
    | false => exact .token .false trivial hr
  | number n =>
    rw [IsPlain] at h
    have htext : n.text = (Number.integer n.natural).text := congrArg Number.text h.1
    show Lexes (n.text.toList ++ rest) _
    rw [htext]
    exact .token (.number (unsigned_naturalNumeral n.natural)) he hr
  | text content => exact .token (spelled_writtenText content) trivial hr
  | list items => simp [depth] at hd
  | object members => simp [depth] at hd

mutual

private theorem lexes_compact (v : Value) (h : v.IsPlain) {rest : List Char} {more : List Token}
    (hr : Lexes rest more) (he : endsNumber rest) :
    Lexes (v.compact rest) (v.spelling ++ more) := by
  cases v with
  | null | bool | number | text => exact lexes_scalar h rfl hr he
  | list items =>
    rw [IsPlain] at h
    rw [compact, spelling, List.cons_append, List.append_assoc]
    exact .token .openList trivial
      (lexes_compactItems items h (.token .closeList trivial hr) rfl)
  | object members =>
    rw [IsPlain] at h
    rw [compact, spelling, List.cons_append, List.append_assoc]
    exact .token .openObject trivial
      (lexes_compactMembers members h (.token .closeObject trivial hr) rfl)

private theorem lexes_compactItems (items : List Value) (h : ItemsPlain items) {rest : List Char}
    {more : List Token} (hr : Lexes rest more) (he : endsNumber rest) :
    Lexes (compactItems rest items) (itemsSpelling items ++ more) := by
  cases items with
  | nil => exact hr
  | cons value items =>
    rw [ItemsPlain] at h
    rw [compactItems, itemsSpelling, List.append_assoc]
    cases items with
    | nil => exact lexes_compact value h.1 hr he
    | cons next items =>
      exact lexes_compact value h.1
        (.token .comma trivial (lexes_compactItems (next :: items) h.2 hr he)) rfl

private theorem lexes_compactMembers (members : List (String × Value)) (h : MembersPlain members)
    {rest : List Char} {more : List Token} (hr : Lexes rest more) (he : endsNumber rest) :
    Lexes (compactMembers rest members) (membersSpelling members ++ more) := by
  cases members with
  | nil => exact hr
  | cons member members =>
    obtain ⟨key, value⟩ := member
    rw [MembersPlain] at h
    rw [compactMembers, membersSpelling, List.cons_append, List.cons_append, List.append_assoc]
    refine .token (spelled_writtenText key) trivial (.token .colon trivial ?_)
    cases members with
    | nil => exact lexes_compact value h.1 hr he
    | cons next members =>
      exact lexes_compact value h.1
        (.token .comma trivial (lexes_compactMembers (next :: members) h.2 hr he)) rfl

end

mutual

private theorem lexes_pretty (v : Value) (h : v.IsPlain) (level : Nat) {rest : List Char}
    {more : List Token} (hr : Lexes rest more) (he : endsNumber rest) :
    Lexes (v.pretty level rest) (v.spelling ++ more) := by
  cases v with
  | null | bool | number | text => exact lexes_scalar h rfl hr he
  | list items =>
    rw [IsPlain] at h
    rw [spelling, List.cons_append, List.append_assoc]
    cases items with
    | nil => exact .token .openList trivial (.token .closeList trivial hr)
    | cons value items =>
      exact .token .openList trivial (lexes_prettyItems (value :: items) h (level + 1)
        (.gap (isGap_lineBreak level) (.token .closeList trivial hr)) rfl)
  | object members =>
    rw [IsPlain] at h
    rw [spelling, List.cons_append, List.append_assoc]
    cases members with
    | nil => exact .token .openObject trivial (.token .closeObject trivial hr)
    | cons member members =>
      exact .token .openObject trivial (lexes_prettyMembers (member :: members) h (level + 1)
        (.gap (isGap_lineBreak level) (.token .closeObject trivial hr)) rfl)

private theorem lexes_prettyItems (items : List Value) (h : ItemsPlain items) (level : Nat)
    {rest : List Char} {more : List Token} (hr : Lexes rest more) (he : endsNumber rest) :
    Lexes (prettyItems level rest items) (itemsSpelling items ++ more) := by
  cases items with
  | nil => exact hr
  | cons value items =>
    rw [ItemsPlain] at h
    rw [prettyItems, itemsSpelling, List.append_assoc]
    apply Lexes.gap (isGap_lineBreak level)
    cases items with
    | nil => exact lexes_pretty value h.1 level hr he
    | cons next items =>
      exact lexes_pretty value h.1 level
        (.token .comma trivial (lexes_prettyItems (next :: items) h.2 level hr he)) rfl

private theorem lexes_prettyMembers (members : List (String × Value)) (h : MembersPlain members)
    (level : Nat) {rest : List Char} {more : List Token} (hr : Lexes rest more)
    (he : endsNumber rest) :
    Lexes (prettyMembers level rest members) (membersSpelling members ++ more) := by
  cases members with
  | nil => exact hr
  | cons member members =>
    obtain ⟨key, value⟩ := member
    rw [MembersPlain] at h
    have hspace : ∀ c ∈ [' '], isGap c := List.forall_mem_singleton.mpr rfl
    rw [prettyMembers, membersSpelling, List.cons_append, List.cons_append, List.append_assoc,
      List.append_assoc]
    refine .gap (isGap_lineBreak level)
      (.token (spelled_writtenText key) trivial (.token .colon trivial (.gap hspace ?_)))
    cases members with
    | nil => exact lexes_pretty value h.1 level hr he
    | cons next members =>
      exact lexes_pretty value h.1 level
        (.token .comma trivial (lexes_prettyMembers (next :: members) h.2 level hr he)) rfl

end

mutual

/-- What follows a value does not change how the value is written. -/
theorem compact_append (v : Value) (rest more : List Char) :
    v.compact (rest ++ more) = v.compact rest ++ more := by
  cases v with
  | null | bool | number | text => exact (List.append_assoc _ _ _).symm
  | list items =>
    exact congrArg ('[' :: ·) (compactItems_append items (']' :: rest) more)
  | object members =>
    exact congrArg ('\x7b' :: ·) (compactMembers_append members ('\x7d' :: rest) more)

private theorem compactItems_append (items : List Value) (rest more : List Char) :
    compactItems (rest ++ more) items = compactItems rest items ++ more := by
  cases items with
  | nil => rfl
  | cons value items =>
    rw [compactItems, compactItems, ← compact_append value]
    cases items with
    | nil => rfl
    | cons next items =>
      exact congrArg (fun rest ↦ compact (',' :: rest) value)
        (compactItems_append (next :: items) rest more)

/-- What follows members does not change how they are written. -/
theorem compactMembers_append (members : List (String × Value)) (rest more : List Char) :
    compactMembers (rest ++ more) members = compactMembers rest members ++ more := by
  cases members with
  | nil => rfl
  | cons member members =>
    obtain ⟨key, value⟩ := member
    rw [compactMembers, compactMembers, List.append_assoc, List.cons_append,
      ← compact_append value]
    cases members with
    | nil => rfl
    | cons next members =>
      exact congrArg (fun rest ↦ writtenText key ++ ':' :: compact (',' :: rest) value)
        (compactMembers_append (next :: members) rest more)

end

/-- Without blanks a plain value is written for its tree. -/
theorem written_compact {v : Value} (h : v.IsPlain) : v.tree.Written (v.compact []) where
  isWhole := v.isWhole_tree
  lexes := by
    rw [v.spelling_tree, ← List.append_nil v.spelling]
    exact lexes_compact v h (.nil (List.forall_mem_nil _)) rfl

private theorem written_pretty {v : Value} (h : v.IsPlain) : v.tree.Written (v.pretty 0 []) where
  isWhole := v.isWhole_tree
  lexes := by
    rw [v.spelling_tree, ← List.append_nil v.spelling]
    exact lexes_pretty v h 0 (.nil (List.forall_mem_nil _)) rfl

end Value

/-! ### Nesting -/

/-- How many brackets are open behind a token. -/
def openAfter (level : Nat) : Token → Nat
  | .openList | .openObject => level + 1
  | .closeList | .closeObject => level - 1
  | _ => level

/-- The greatest number of brackets that are open at once in tokens, when some are open before. -/
def nestingFrom (level : Nat) : List Token → Nat
  | [] => level
  | token :: tokens => max level (nestingFrom (openAfter level token) tokens)

private theorem le_nestingFrom (level : Nat) (tokens : List Token) :
    level ≤ nestingFrom level tokens := by
  cases tokens with
  | nil => exact Nat.le_refl _
  | cons token tokens => exact Nat.le_max_left _ _

private theorem nestingFrom_cons {level : Nat} {token : Token} (h : openAfter level token = level)
    (tokens : List Token) : nestingFrom level (token :: tokens) = nestingFrom level tokens := by
  rw [nestingFrom, h, Nat.max_eq_right (le_nestingFrom level tokens)]

/-- How deep the brackets of a text are nested. -/
def nesting (text : List Char) : Nat := nestingFrom 0 (tokens text)

namespace Value

mutual

private theorem nestingFrom_spelling (v : Value) (level : Nat) (more : List Token) :
    nestingFrom level (v.spelling ++ more) = max (level + v.depth) (nestingFrom level more) := by
  cases v with
  | null | bool | number | text => rfl
  | list items =>
    rw [spelling, List.cons_append, List.append_assoc, nestingFrom, openAfter,
      nestingFrom_itemsSpelling, List.singleton_append, nestingFrom, openAfter, depth,
      Nat.add_sub_cancel]
    omega
  | object members =>
    rw [spelling, List.cons_append, List.append_assoc, nestingFrom, openAfter,
      nestingFrom_membersSpelling, List.singleton_append, nestingFrom, openAfter, depth,
      Nat.add_sub_cancel]
    omega

private theorem nestingFrom_itemsSpelling (items : List Value) (level : Nat) (more : List Token) :
    nestingFrom level (itemsSpelling items ++ more) =
      max (level + depthOfItems items) (nestingFrom level more) := by
  have hle := le_nestingFrom level more
  cases items with
  | nil =>
    rw [itemsSpelling, depthOfItems, List.nil_append]
    omega
  | cons value items =>
    have hrest := nestingFrom_itemsSpelling items level more
    rw [itemsSpelling, List.append_assoc, nestingFrom_spelling, depthOfItems]
    cases items with
    | nil =>
      rw [List.isEmpty_nil, if_pos rfl, List.nil_append, depthOfItems]
      omega
    | cons next items =>
      rw [List.isEmpty_cons, if_neg Bool.false_ne_true, List.cons_append,
        @nestingFrom_cons level .comma rfl, hrest]
      omega

private theorem nestingFrom_membersSpelling (members : List (String × Value)) (level : Nat)
    (more : List Token) : nestingFrom level (membersSpelling members ++ more) =
      max (level + depthOfMembers members) (nestingFrom level more) := by
  have hle := le_nestingFrom level more
  cases members with
  | nil =>
    rw [membersSpelling, depthOfMembers, List.nil_append]
    omega
  | cons member members =>
    obtain ⟨key, value⟩ := member
    have hrest := nestingFrom_membersSpelling members level more
    rw [membersSpelling, List.cons_append, List.cons_append, List.append_assoc,
      @nestingFrom_cons level (.text (some key)) rfl, @nestingFrom_cons level .colon rfl,
      nestingFrom_spelling, depthOfMembers]
    cases members with
    | nil =>
      rw [List.isEmpty_nil, if_pos rfl, List.nil_append, depthOfMembers]
      omega
    | cons next members =>
      rw [List.isEmpty_cons, if_neg Bool.false_ne_true, List.cons_append,
        @nestingFrom_cons level .comma rfl, hrest]
      omega

end

/-- The brackets of a plain value's text are nested as deep as its lists and objects. -/
theorem nesting_pretty {v : Value} (h : v.IsPlain) : nesting (v.pretty 0 []) = v.depth := by
  rw [nesting, (written_pretty h).lexes.tokens_eq, v.spelling_tree,
    ← List.append_nil v.spelling, nestingFrom_spelling, nestingFrom]
  omega

/-! ### Reading the tree -/

mutual

/-- A value with the members of all its objects in the order of their keys. -/
def sorted : Value → Value
  | list items => .list (sortedItems items)
  | object members => .object (sortedMembers [] members)
  | value => value

/-- Items with the members of all their objects in the order of their keys. -/
def sortedItems : List Value → List Value
  | [] => []
  | value :: items => sorted value :: sortedItems items

/-- A table with some more members. -/
def sortedMembers (table : List (String × Value)) : List (String × Value) → List (String × Value)
  | [] => table
  | (key, value) :: members => sortedMembers (Ordered.insert key (sorted value) table) members

end

mutual

private theorem ofTree_tree (v : Value) (h : v.IsPlain) (room : Nat) :
    ofTree room v.tree = if v.depth ≤ room then .ok v.sorted else .error .malformed := by
  cases v with
  | null => cases room <;> rfl
  | bool b => cases room <;> rfl
  | number n =>
    rw [IsPlain] at h
    have hvalue : (naturalNumeral n.natural).value = some n := by
      rw [value_naturalNumeral h.2, ← h.1]
    cases room <;> simp [tree, ofTree, hvalue, depth, sorted]
  | text content => cases room <;> rfl
  | list items =>
    rw [IsPlain] at h
    cases room with
    | zero => rfl
    | succ room =>
      rw [tree, ofTree, mapM_itemTrees items h room, depth, sorted]
      by_cases hd : depthOfItems items ≤ room
      · rw [if_pos hd, if_pos (Nat.succ_le_succ hd)]
        rfl
      · rw [if_neg hd, if_neg (fun hs ↦ hd (Nat.le_of_succ_le_succ hs))]
        rfl
  | object members =>
    rw [IsPlain] at h
    cases room with
    | zero => rfl
    | succ room =>
      rw [tree, ofTree, foldlM_memberTrees members h room [], depth, sorted]
      by_cases hd : depthOfMembers members ≤ room
      · rw [if_pos hd, if_pos (Nat.succ_le_succ hd)]
        rfl
      · rw [if_neg hd, if_neg (fun hs ↦ hd (Nat.le_of_succ_le_succ hs))]
        rfl

private theorem mapM_itemTrees (items : List Value) (h : ItemsPlain items) (room : Nat) :
    (itemTrees items).mapM (ofTree room) =
      if depthOfItems items ≤ room then .ok (sortedItems items) else .error .malformed := by
  cases items with
  | nil => rfl
  | cons value items =>
    rw [ItemsPlain] at h
    rw [itemTrees, List.mapM_cons, ofTree_tree value h.1 room, mapM_itemTrees items h.2 room,
      depthOfItems, sortedItems]
    by_cases hv : value.depth ≤ room
    · by_cases hi : depthOfItems items ≤ room
      · rw [if_pos hv, if_pos hi, if_pos (Nat.max_le.mpr ⟨hv, hi⟩)]
        rfl
      · rw [if_pos hv, if_neg hi, if_neg (fun hm ↦ hi (Nat.max_le.mp hm).2)]
        rfl
    · rw [if_neg hv, if_neg (fun hm ↦ hv (Nat.max_le.mp hm).1)]
      rfl

private theorem foldlM_memberTrees (members : List (String × Value)) (h : MembersPlain members)
    (room : Nat) (table : List (String × Value)) :
    (memberTrees members).foldlM (fun found member ↦ do
      let key ← readContent member.1
      return Ordered.insert key (← ofTree room member.2) found) table =
      if depthOfMembers members ≤ room then .ok (sortedMembers table members)
      else .error .malformed := by
  cases members with
  | nil => rfl
  | cons member members =>
    obtain ⟨key, value⟩ := member
    rw [MembersPlain] at h
    rw [memberTrees, List.foldlM_cons, readContent, ofTree_tree value h.1 room, depthOfMembers,
      sortedMembers]
    by_cases hv : value.depth ≤ room
    · have hrest := foldlM_memberTrees members h.2 room (Ordered.insert key value.sorted table)
      rw [if_pos hv]
      refine hrest.trans ?_
      by_cases hi : depthOfMembers members ≤ room
      · rw [if_pos hi, if_pos (Nat.max_le.mpr ⟨hv, hi⟩)]
      · rw [if_neg hi, if_neg (fun hm ↦ hi (Nat.max_le.mp hm).2)]
    · rw [if_neg hv, if_neg (fun hm ↦ hv (Nat.max_le.mp hm).1)]
      rfl

end

/-- The text of a plain value is read as the value, if its brackets are not nested too deep. -/
theorem read_pretty {v : Value} (h : v.IsPlain) : read (v.pretty 0 []) =
    if nesting (v.pretty 0 []) ≤ maxNesting then .ok v.sorted else .error .malformed := by
  rw [read, (written_pretty h).read_eq, nesting_pretty h, ofTree_tree v h]
  split <;> rfl

end Value

end Blockwright.Json
