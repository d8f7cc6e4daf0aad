import Blockwright.Block.Markup
import Mathlib.Data.List.Basic

/-!
# Markup read back

Written markup is read from its end. Angle brackets stand only around tags, however a text or the
value of an attribute reads, so the tags of a written tree are found without looking at the tree. A
closing tag starts an empty list of elements and the opening tag that belongs to it ends the list.
What is read back is the tree itself, so two trees of blocks that are written alike are the same.
-/

namespace Blockwright

namespace Markup

/-! ### Escaped characters -/

/-- A text with the characters for which its references stand. -/
def unescape : List Char → List Char
  | '&' :: 'l' :: 't' :: ';' :: cs => '<' :: unescape cs
  | '&' :: 'g' :: 't' :: ';' :: cs => '>' :: unescape cs
  | '&' :: 'a' :: 'm' :: 'p' :: ';' :: cs => '&' :: unescape cs
  | '&' :: 'q' :: 'u' :: 'o' :: 't' :: ';' :: cs => '"' :: unescape cs
  | '&' :: 'a' :: 'p' :: 'o' :: 's' :: ';' :: cs => '\x27' :: unescape cs
  | '&' :: '#' :: 'x' :: 'A' :: ';' :: cs => '\n' :: unescape cs
  | '&' :: '#' :: 'x' :: 'D' :: ';' :: cs => '\r' :: unescape cs
  | c :: cs => c :: unescape cs
  | [] => []

private theorem unescape_cons {c : Char} (h : c ≠ '&') (cs : List Char) :
    unescape (c :: cs) = c :: unescape cs := by
  conv_lhs => unfold unescape
  split <;> simp_all

/-- Whether a character is an angle bracket. -/
def isBracket (c : Char) : Bool := c == '<' || c == '>'

/-- How a character is written: as it is, or as a reference. -/
inductive Escapes : Char → List Char → Prop where
  | itself {c : Char} (h : isBracket c = false) (ha : c ≠ '&') : Escapes c [c]
  | less : Escapes '<' "&lt;".toList
  | greater : Escapes '>' "&gt;".toList
  | ampersand : Escapes '&' "&amp;".toList
  | quotation : Escapes '"' "&quot;".toList
  | apostrophe : Escapes '\x27' "&apos;".toList
  | lineFeed : Escapes '\n' "&#xA;".toList
  | carriageReturn : Escapes '\r' "&#xD;".toList

private theorem escapes_inText (c : Char) : Escapes c (escapeInText c) := by
  unfold escapeInText
  split
  · next h => exact h ▸ .less
  · split
    · next h => exact h ▸ .greater
    · split
      · next h => exact h ▸ .ampersand
      · exact .itself (by simp_all [isBracket]) (by assumption)

private theorem escapes_inValue (c : Char) : Escapes c (escapeInValue c) := by
  unfold escapeInValue
  split
  · next h => exact h ▸ .quotation
  · split
    · next h => exact h ▸ .apostrophe
    · split
      · next h => exact h ▸ .lineFeed
      · split
        · next h => exact h ▸ .carriageReturn
        · exact escapes_inText c

namespace Escapes

variable {c : Char} {written : List Char}

private theorem unescape_append (h : Escapes c written) (cs : List Char) :
    unescape (written ++ cs) = c :: unescape cs := by
  cases h with
  | itself _ ha => exact unescape_cons ha cs
  | _ => rfl

private theorem isBracket_eq_false (h : Escapes c written) :
    ∀ d ∈ written, isBracket d = false := by
  cases h with
  | itself hb _ => simpa using hb
  | _ => simp [isBracket]

private theorem eq_of_quotation_mem (h : Escapes c written) (hm : '"' ∈ written) :
    c = '"' ∧ written = ['"'] := by
  cases h with
  | itself _ _ =>
    obtain rfl := List.mem_singleton.mp hm
    exact ⟨rfl, rfl⟩
  | _ => exact absurd hm (by decide)

end Escapes

private theorem unescape_flatMap {escape : Char → List Char} (h : ∀ c, Escapes c (escape c))
    (cs : List Char) : unescape (cs.flatMap escape) = cs := by
  induction cs with
  | nil => rfl
  | cons c cs ih => rw [List.flatMap_cons, (h c).unescape_append, ih]

private theorem isBracket_flatMap {escape : Char → List Char} (h : ∀ c, Escapes c (escape c))
    (cs : List Char) : ∀ d ∈ cs.flatMap escape, isBracket d = false := by
  intro d hd
  obtain ⟨c, -, hc⟩ := List.mem_flatMap.mp hd
  exact (h c).isBracket_eq_false d hc

private theorem quotation_notMem_value (cs : List Char) : '"' ∉ cs.flatMap escapeInValue := by
  intro hm
  obtain ⟨c, -, hc⟩ := List.mem_flatMap.mp hm
  obtain ⟨rfl, he⟩ := (escapes_inValue c).eq_of_quotation_mem hc
  exact absurd he (by decide)

/-! ### Tags -/

/-- What stands between angle brackets, with the text behind it. -/
structure Tag where
  content : List Char
  text : List Char

/-- A tag that has been taken apart. -/
inductive Mark where
  | opening (tag : String) (attributes : List (String × String))
  /-- An opening and a closing tag in one. -/
  | single (tag : String) (attributes : List (String × String))
  | closing (tag : String)

/-- The tag that follows an opening angle bracket, up to the next one. -/
def Tag.ofPiece (piece : List Char) : Tag :=
  ⟨piece.takeWhile (· != '>'), (piece.dropWhile (· != '>')).drop 1⟩

/-- What stands before the first tag of a text, and the tags. -/
def cutTags : List Char → List Char × List Tag
  | [] => ([], [])
  | c :: cs =>
    let rest := cutTags cs
    if c = '<' then ([], Tag.ofPiece rest.1 :: rest.2) else (c :: rest.1, rest.2)

/-- The attributes that stand between quotation marks, and what follows the last of them. -/
def readAttributes : List (List Char) → List (String × String) × List Char
  | name :: value :: pieces =>
    let rest := readAttributes pieces
    ((String.ofList (name.drop 1).dropLast, String.ofList (unescape value)) :: rest.1, rest.2)
  | [last] => ([], last)
  | [] => ([], [])

/-- What a tag says. -/
def Mark.read : List Char → Mark
  | '/' :: tag => .closing (String.ofList tag)
  | content =>
    let tag := String.ofList (content.takeWhile (· != ' '))
    let attributes := readAttributes ((content.dropWhile (· != ' ')).splitOn '"')
    if attributes.2.isEmpty then .opening tag attributes.1 else .single tag attributes.1

/-- Whether a name consists of letters and low lines. -/
def isWord (name : String) : Bool := name.toList.all (fun c ↦ c.isAlpha || c == '_')

private theorem cutTags_append {text : List Char} (h : ∀ c ∈ text, isBracket c = false)
    (rest : List Char) : cutTags (text ++ rest) = (text ++ (cutTags rest).1, (cutTags rest).2) := by
  induction text with
  | nil => rfl
  | cons c text ih =>
    rw [List.forall_mem_cons] at h
    have hc : c ≠ '<' := by
      rintro rfl
      cases h.1
    rw [List.cons_append, cutTags, ih h.2]
    exact if_neg hc

private theorem cutTags_tag {content : List Char} (h : ∀ c ∈ content, isBracket c = false)
    (rest : List Char) : cutTags ('<' :: (content ++ '>' :: rest)) =
      ([], ⟨content, (cutTags rest).1⟩ :: (cutTags rest).2) := by
  have hgreater : cutTags ('>' :: rest) = ('>' :: (cutTags rest).1, (cutTags rest).2) := by
    rw [cutTags]
    rfl
  have hpiece : Tag.ofPiece (content ++ '>' :: (cutTags rest).1) =
      ⟨content, (cutTags rest).1⟩ := by
    have hc : ∀ c ∈ content, (c != '>') = true := by
      intro c hc
      have := h c hc
      simp_all [isBracket]
    rw [Tag.ofPiece, List.takeWhile_append_of_pos hc, List.dropWhile_append_of_pos hc]
    simp
  rw [cutTags, cutTags_append h, hgreater]
  dsimp only
  rw [if_pos rfl, hpiece]

private theorem notMem_of_isWord {name : String} (h : isWord name) {c : Char}
    (hc : (c.isAlpha || c == '_') = false) : c ∉ name.toList := by
  intro hm
  rw [List.all_eq_true.mp h c hm] at hc
  cases hc

private theorem isBracket_of_isWord {name : String} (h : isWord name) :
    ∀ c ∈ name.toList, isBracket c = false := by
  intro c hc
  by_contra hb
  rw [Bool.not_eq_false, isBracket, Bool.or_eq_true, beq_iff_eq, beq_iff_eq] at hb
  rcases hb with rfl | rfl
  · exact notMem_of_isWord h (by decide) hc
  · exact notMem_of_isWord h (by decide) hc

private theorem readAttributes_written {attributes : List (String × String)}
    (h : ∀ entry ∈ attributes, isWord entry.1) {ending : List Char} (he : '"' ∉ ending) :
    readAttributes ((attributes.flatMap writtenAttribute ++ ending).splitOn '"') =
      (attributes, ending) := by
  induction attributes with
  | nil =>
    rw [List.flatMap_nil, List.nil_append, List.splitOn_eq_singleton he, readAttributes]
  | cons entry attributes ih =>
    rw [List.forall_mem_cons] at h
    have hname : '"' ∉ ' ' :: (entry.1.toList ++ ['=']) := by
      simpa using notMem_of_isWord h.1 (c := '"') (by decide)
    have hwritten : (entry :: attributes).flatMap writtenAttribute ++ ending =
        (' ' :: (entry.1.toList ++ ['='])) ++ '"' :: (entry.2.toList.flatMap escapeInValue ++
          '"' :: (attributes.flatMap writtenAttribute ++ ending)) := by
      simp [writtenAttribute]
    rw [hwritten, List.splitOn_append_cons_self_of_not_mem hname,
      List.splitOn_append_cons_self_of_not_mem (quotation_notMem_value _), readAttributes, ih h.2,
      unescape_flatMap escapes_inValue]
    simp

private theorem Mark.read_of_head? {content : List Char} (h : content.head? ≠ some '/') :
    Mark.read content =
      if (readAttributes ((content.dropWhile (· != ' ')).splitOn '"')).2.isEmpty then
        .opening (String.ofList (content.takeWhile (· != ' ')))
          (readAttributes ((content.dropWhile (· != ' ')).splitOn '"')).1
      else
        .single (String.ofList (content.takeWhile (· != ' ')))
          (readAttributes ((content.dropWhile (· != ' ')).splitOn '"')).1 := by
  unfold Mark.read
  split
  · exact absurd rfl h
  · rfl

section tags

variable {tag : String} {attributes : List (String × String)}

private theorem Mark.read_tagContent (ht : isWord tag) (ha : ∀ entry ∈ attributes, isWord entry.1)
    (ending : List Char) (hstart : ∀ c ∈ ending.head?, c = ' ') (he : '"' ∉ ending) :
    Mark.read (tagContent tag attributes ++ ending) =
      if ending.isEmpty then .opening tag attributes else .single tag attributes := by
  rw [tagContent, List.append_assoc]
  have hread := readAttributes_written ha he
  -- Behind the tag's name comes a blank or nothing.
  have hblank : ∀ c ∈ (attributes.flatMap writtenAttribute ++ ending).head?, c = ' ' := by
    cases attributes with
    | nil => exact hstart
    | cons entry attributes =>
      intro c hc
      exact (Option.some.inj hc).symm
  generalize attributes.flatMap writtenAttribute ++ ending = rest at hread hblank
  have hname : ∀ c ∈ tag.toList, (c != ' ') = true := by
    intro c hc
    rw [bne_iff_ne]
    rintro rfl
    exact notMem_of_isWord ht (by decide) hc
  have hrest : rest.takeWhile (· != ' ') = [] ∧ rest.dropWhile (· != ' ') = rest := by
    cases rest with
    | nil => exact ⟨rfl, rfl⟩
    | cons c rest =>
      obtain rfl := hblank c rfl
      exact ⟨rfl, rfl⟩
  have hhead : (tag.toList ++ rest).head? ≠ some '/' := by
    rw [List.head?_append]
    cases hcs : tag.toList with
    | nil => exact fun hc ↦ absurd (hblank _ hc) (by decide)
    | cons c cs =>
      rintro hc
      apply notMem_of_isWord ht (c := '/') (by decide)
      rw [hcs, ← Option.some.inj hc]
      exact List.mem_cons_self
  rw [Mark.read_of_head? hhead, List.takeWhile_append_of_pos hname,
    List.dropWhile_append_of_pos hname, hrest.1, hrest.2, hread, List.append_nil,
    String.ofList_toList]

private theorem isBracket_tagContent (ht : isWord tag) (ha : ∀ entry ∈ attributes, isWord entry.1) :
    ∀ c ∈ tagContent tag attributes, isBracket c = false := by
  rw [tagContent, List.forall_mem_append]
  refine ⟨isBracket_of_isWord ht, ?_⟩
  intro c hc
  obtain ⟨entry, hm, hc⟩ := List.mem_flatMap.mp hc
  have hvalue := isBracket_flatMap escapes_inValue entry.2.toList
  have hname := isBracket_of_isWord (ha entry hm)
  simp only [writtenAttribute, List.cons_append, List.mem_cons, List.mem_append,
    List.not_mem_nil, or_false] at hc
  rcases hc with rfl | (hc | rfl | rfl | hc) | rfl
  · rfl
  · exact hname c hc
  · rfl
  · rfl
  · exact hvalue c hc
  · rfl

end tags

end Markup

open Markup

/-! ### Trees -/

namespace Element

/-- An element whose closing tag has been read but not yet its opening tag, with the elements that
have been read inside it. -/
structure Pending where
  tag : String
  elements : List Element

/-- One more element has been read, in front of the others. -/
def Pending.add (e : Element) (pending : Pending) : Pending :=
  { pending with elements := e :: pending.elements }

/-- The element that an opening tag starts: if there are no elements in it, the text behind the tag
is its content, and otherwise that text is the start of a line. -/
def ofOpening (tag : String) (attributes : List (String × String)) (text : List Char) :
    List Element → Element
  | [] => leaf tag attributes (String.ofList (unescape text))
  | e :: es => node tag attributes (e :: es)

/-- Reads one more tag in front of those that have been read. -/
def readTag (tag : Tag) (pending : List Pending) : Option (List Pending) :=
  match Mark.read tag.content, pending with
  | .closing name, pending => some (⟨name, []⟩ :: pending)
  | .single name attributes, around :: others =>
    some (around.add (node name attributes []) :: others)
  | .opening name attributes, inside :: around :: others =>
    if inside.tag = name then
      some (around.add (ofOpening name attributes tag.text inside.elements) :: others)
    else none
  | _, _ => none

/-- Reads tags from the last to the first. Around all elements is one without a name. -/
def readTags (tags : List Tag) : Option (List Pending) :=
  tags.foldr (fun tag pending ↦ pending.bind (readTag tag)) (some [⟨"", []⟩])

/-- The tree of a written text. -/
def read (text : String) : Option Element :=
  match readTags (cutTags text.toList).2 with
  | some [⟨_, [e]⟩] => some e
  | _ => none

mutual

/-- Whether the tags and attributes of an element and those inside it are named by words. -/
def wellNamed : Element → Bool
  | node tag attributes children =>
    isWord tag && attributes.all (fun entry ↦ isWord entry.1) && allWellNamed children
  | leaf tag attributes _ => isWord tag && attributes.all (fun entry ↦ isWord entry.1)

/-- Whether the tags and attributes of some elements and those inside them are named by words. -/
def allWellNamed : List Element → Bool
  | [] => true
  | e :: es => wellNamed e && allWellNamed es

end

/-- What is pending when a text has been read to its start. -/
def pendingAt (cs : List Char) : Option (List Pending) := readTags (cutTags cs).2

private theorem pendingAt_append {text : List Char} (h : ∀ c ∈ text, isBracket c = false)
    (rest : List Char) : pendingAt (text ++ rest) = pendingAt rest := by
  rw [pendingAt, cutTags_append h]
  rfl

private theorem pendingAt_tag {content : List Char} (h : ∀ c ∈ content, isBracket c = false)
    (rest : List Char) : pendingAt ('<' :: (content ++ '>' :: rest)) =
      (pendingAt rest).bind (readTag ⟨content, (cutTags rest).1⟩) := by
  rw [pendingAt, cutTags_tag h]
  rfl

private theorem isBracket_lineStart (level : Nat) : ∀ c ∈ lineStart level, isBracket c = false := by
  intro c hc
  rcases List.mem_cons.mp hc with rfl | hc
  · rfl
  · rw [List.eq_of_mem_replicate hc]
    rfl

private theorem pendingAt_closingTag {tag : String} (ht : isWord tag) {rest : List Char}
    {pending : List Pending} (h : pendingAt rest = some pending) :
    pendingAt (closingTag tag ++ rest) = some (⟨tag, []⟩ :: pending) := by
  have hcontent : ∀ c ∈ '/' :: tag.toList, isBracket c = false := by
    rw [List.forall_mem_cons]
    exact ⟨rfl, isBracket_of_isWord ht⟩
  have hwritten : closingTag tag ++ rest = '<' :: ('/' :: tag.toList ++ '>' :: rest) := by
    simp [closingTag]
  rw [hwritten, pendingAt_tag hcontent, h]
  simp [readTag, Mark.read]

section render

variable {tag : String} {attributes : List (String × String)} {around : Pending}
  {others : List Pending}

private theorem pendingAt_opening (ht : isWord tag) (ha : ∀ entry ∈ attributes, isWord entry.1)
    {rest : List Char} {elements : List Element}
    (h : pendingAt rest = some (⟨tag, elements⟩ :: around :: others)) :
    pendingAt ('<' :: (tagContent tag attributes ++ '>' :: rest)) =
      some (around.add (ofOpening tag attributes (cutTags rest).1 elements) :: others) := by
  have hread := Mark.read_tagContent ht ha [] (by simp) (by simp)
  rw [List.append_nil] at hread
  rw [pendingAt_tag (isBracket_tagContent ht ha), h]
  simp [readTag, hread]

private theorem pendingAt_single (ht : isWord tag) (ha : ∀ entry ∈ attributes, isWord entry.1)
    {rest : List Char} (h : pendingAt rest = some (around :: others)) :
    pendingAt ('<' :: (tagContent tag attributes ++ ' ' :: '/' :: '>' :: rest)) =
      some (around.add (node tag attributes []) :: others) := by
  have hread := Mark.read_tagContent ht ha [' ', '/'] (by simp) (by decide)
  have hcontent : ∀ c ∈ tagContent tag attributes ++ [' ', '/'], isBracket c = false := by
    rw [List.forall_mem_append]
    exact ⟨isBracket_tagContent ht ha, by simp [isBracket]⟩
  have hwritten : tagContent tag attributes ++ ' ' :: '/' :: '>' :: rest =
      (tagContent tag attributes ++ [' ', '/']) ++ '>' :: rest := by simp
  rw [hwritten, pendingAt_tag hcontent, h]
  simp [readTag, hread]

end render

mutual

private theorem pendingAt_render (level : Nat) {rest : List Char} {around : Pending}
    {others : List Pending} (h : pendingAt rest = some (around :: others)) (e : Element)
    (hn : e.wellNamed) : pendingAt (e.render level rest) = some (around.add e :: others) := by
  cases e with
  | node tag attributes children =>
    rw [wellNamed, Bool.and_eq_true, Bool.and_eq_true, List.all_eq_true] at hn
    obtain ⟨⟨ht, ha⟩, hchildren⟩ := hn
    rw [render]
    cases children with
    | nil => exact pendingAt_single ht ha h
    | cons child children =>
      have hclosing : pendingAt (lineStart level ++ closingTag tag ++ rest) =
          some (⟨tag, []⟩ :: around :: others) := by
        rw [List.append_assoc, pendingAt_append (isBracket_lineStart level)]
        exact pendingAt_closingTag ht h
      have hinside := pendingAt_renderLines (level + 1) hclosing (child :: children) hchildren
      rw [List.append_nil] at hinside
      exact pendingAt_opening ht ha hinside
  | leaf tag attributes content =>
    rw [wellNamed, Bool.and_eq_true, List.all_eq_true] at hn
    have hcontent := isBracket_flatMap escapes_inText content.toList
    have hclosing : pendingAt (content.toList.flatMap escapeInText ++ (closingTag tag ++ rest)) =
        some (⟨tag, []⟩ :: around :: others) := by
      rw [pendingAt_append hcontent]
      exact pendingAt_closingTag hn.1 h
    -- An escaped text holds no brackets, so all of it stands in front of the first tag.
    have htext : (cutTags (content.toList.flatMap escapeInText ++ (closingTag tag ++ rest))).1 =
        content.toList.flatMap escapeInText := by
      rw [cutTags_append hcontent]
      exact List.append_nil _
    have hopening := pendingAt_opening hn.1 hn.2 hclosing
    rw [htext, ofOpening, unescape_flatMap escapes_inText, String.ofList_toList] at hopening
    rw [render]
    simpa using hopening

private theorem pendingAt_renderLines (level : Nat) {rest : List Char} {tag : String}
    {elements : List Element} {others : List Pending}
    (h : pendingAt rest = some (⟨tag, elements⟩ :: others)) (es : List Element)
    (hn : allWellNamed es) :
    pendingAt (renderLines level rest es) = some (⟨tag, es ++ elements⟩ :: others) := by
  cases es with
  | nil => exact h
  | cons e es =>
    rw [allWellNamed, Bool.and_eq_true] at hn
    rw [renderLines, pendingAt_append (isBracket_lineStart level)]
    exact pendingAt_render level (pendingAt_renderLines level h es hn.2) e hn.1

end

/-- A tree whose tags and attributes are named by words is read back from its written form. -/
theorem read_written {e : Element} (h : e.wellNamed) : read e.written = some e := by
  have hend : pendingAt [] = some [⟨"", []⟩] := rfl
  have hread := pendingAt_render 0 hend e h
  rw [pendingAt] at hread
  rw [read, written, String.toList_ofList, hread]
  rfl

/-! ### The names in blocks -/

@[simp] private theorem allWellNamed_append (es others : List Element) :
    allWellNamed (es ++ others) = (allWellNamed es && allWellNamed others) := by
  induction es with
  | nil => rfl
  | cons e es ih => rw [List.cons_append, allWellNamed, ih, allWellNamed, Bool.and_assoc]

private theorem allWellNamed_of_forall {es : List Element} (h : ∀ e ∈ es, e.wellNamed) :
    allWellNamed es := by
  induction es with
  | nil => rfl
  | cons e es ih =>
    rw [List.forall_mem_cons] at h
    rw [allWellNamed, h.1, ih h.2]
    rfl

end Element

open Element

namespace Markup

variable (name : String)

@[simp] private theorem wellNamed_title (content : String) : (title name content).wellNamed := by
  simp [title, wellNamed, isWord]

@[simp] private theorem wellNamed_block (children : List Element) :
    (Markup.block name children).wellNamed = allWellNamed children := by
  simp [Markup.block, wellNamed, isWord]

@[simp] private theorem wellNamed_input (e : Element) : (input name e).wellNamed = e.wellNamed := by
  simp [input, wellNamed, allWellNamed, isWord]

@[simp] private theorem wellNamed_parameter : (parameter name).wellNamed := by
  simp [parameter, wellNamed, allWellNamed, isWord]

@[simp] private theorem wellNamed_mutation (attributes : List (String × String))
    (children : List Element) : (mutation attributes children).wellNamed =
      (attributes.all (fun entry ↦ isWord entry.1) && allWellNamed children) := by
  simp [mutation, wellNamed, isWord]

@[simp] private theorem allWellNamed_statement (chain : List Element) :
    allWellNamed (statement name chain) = allWellNamed chain := by
  rw [statement]
  split
  · next h => rw [List.isEmpty_iff.mp h]
  · simp [allWellNamed, wellNamed, isWord]

@[simp] private theorem allWellNamed_next (chain : List Element) :
    allWellNamed (next chain) = allWellNamed chain := by
  rw [next]
  split
  · next h => rw [List.isEmpty_iff.mp h]
  · simp [allWellNamed, wellNamed, isWord]

@[simp] private theorem allWellNamed_parameters (names : List String) :
    allWellNamed (names.map parameter) := by
  apply allWellNamed_of_forall
  intro e he
  obtain ⟨name, -, rfl⟩ := List.mem_map.mp he
  exact wellNamed_parameter name

end Markup

@[simp] private theorem Literal.wellNamed_element (literal : Literal) :
    literal.element.wellNamed := by
  cases literal <;> simp [element, allWellNamed]

@[simp] private theorem Literal.allWellNamed_inputs (arguments : List Literal) :
    allWellNamed (Literal.inputs arguments) := by
  apply allWellNamed_of_forall
  intro e he
  obtain ⟨i, hi, rfl⟩ := List.mem_mapIdx.mp he
  rw [wellNamed_input, wellNamed_element]

namespace Block

mutual

private theorem wellNamed_element (rest : List Element) (h : allWellNamed rest) (block : Block) :
    (block.element rest).wellNamed := by
  cases block with
  | setProperty type component property value => simp [element, allWellNamed, isWord, h]
  | setVariable target value => simp [element, allWellNamed, h]
  | callProcedure name slots arguments => simp [element, allWellNamed, isWord, h]
  | callMethod type component method arguments => simp [element, allWellNamed, isWord, h]
  | branch condition body otherwise =>
    have hmutation : allWellNamed
        (if otherwise.isEmpty then [] else [mutation [("else", "1")] []]) := by
      split <;> simp [allWellNamed, isWord]
    rw [element, wellNamed_block, allWellNamed_append, allWellNamed_append, allWellNamed_append,
      allWellNamed_append, hmutation]
    simp [allWellNamed, h, allWellNamed_chain body, allWellNamed_chain otherwise]
  | loop condition body => simp [element, allWellNamed, h, allWellNamed_chain body]
  | forEach item list body => simp [element, allWellNamed, h, allWellNamed_chain body]

private theorem allWellNamed_chain (blocks : List Block) : allWellNamed (chain blocks) := by
  cases blocks with
  | nil => rfl
  | cons block blocks =>
    have hnext : allWellNamed (next (chain blocks)) := by
      rw [allWellNamed_next, allWellNamed_chain blocks]
    rw [chain, allWellNamed, wellNamed_element _ hnext block]
    rfl

end

end Block

private theorem PlacedBlock.wellNamed_element (placed : PlacedBlock) :
    placed.element.wellNamed := by
  have hcontent : allWellNamed placed.block.content.2 := by
    cases placed.block with
    | declaration name value => simp [TopBlock.content, allWellNamed]
    | procedure name parameters body =>
      simp [TopBlock.content, allWellNamed, Block.allWellNamed_chain]
    | handler type component event body =>
      simp [TopBlock.content, allWellNamed, isWord, Block.allWellNamed_chain]
  simp [PlacedBlock.element, wellNamed, isWord, hcontent]

/-- The tree of blocks is well named. -/
theorem wellNamed_blocksDocument (placed : List PlacedBlock) :
    (blocksDocument placed).wellNamed := by
  have hall : allWellNamed (placed.map PlacedBlock.element) := by
    apply allWellNamed_of_forall
    intro e he
    obtain ⟨block, -, rfl⟩ := List.mem_map.mp he
    exact block.wellNamed_element
  simp [blocksDocument, wellNamed, isWord, hall]

/-- The tree of a program's blocks is read back from its written form, whatever texts the program,
the configuration and the extensions hold. So the blocks of two programs that are written alike are
the same. -/
theorem Catalog.read_written_canvas (c : Catalog) (p : Script.Program) :
    Element.read (blocksDocument (c.canvas p).2).written = some (blocksDocument (c.canvas p).2) ∧
      ∀ (other : Catalog) (q : Script.Program),
        (blocksDocument (c.canvas p).2).written = (blocksDocument (other.canvas q).2).written ↔
          blocksDocument (c.canvas p).2 = blocksDocument (other.canvas q).2 := by
  have hread (c : Catalog) (p : Script.Program) := read_written
    (wellNamed_blocksDocument (c.canvas p).2)
  refine ⟨hread c p, fun other q ↦ ⟨?_, congrArg written⟩⟩
  intro h
  apply Option.some.inj
  rw [← hread c p, h, hread other q]

end Blockwright
