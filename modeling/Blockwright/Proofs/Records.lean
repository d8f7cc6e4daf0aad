import Blockwright.Json.Record
import Blockwright.Proofs.Trees
import Mathlib.Data.List.Forall2

/-!
# Records from fields

Fields describe a record if each known field is given at most once, with a tree that tells its
value. Their order does not matter, and neither do fields that are not known. What is read has
the fields that are given and is blank in the others.
-/

namespace Blockwright.Json

/-! ### Objects and lists without faults -/

namespace Tree

/-- The object of some fields in written order. -/
def ofFields (fields : List (String × Tree)) : Tree :=
  .object (fields.map (fun field ↦ (some field.1, field.2))) none

private theorem isWhole_of_mem_items {items : List Tree} (h : (list items none).isWhole) :
    ∀ tree ∈ items, tree.isWhole := by
  change itemsWhole items = true at h
  induction items with
  | nil => simp
  | cons item items ih =>
    rw [itemsWhole, Bool.and_eq_true] at h
    rw [List.forall_mem_cons]
    exact ⟨h.1, ih h.2⟩

private theorem isWhole_of_mem_fields {fields : List (String × Tree)}
    (h : (ofFields fields).isWhole) :
    ∀ field ∈ fields, field.2.isWhole := by
  change membersWhole (fields.map (fun field ↦ (some field.1, field.2))) = true at h
  induction fields with
  | nil => simp
  | cons field fields ih =>
    rw [List.map_cons, membersWhole, Bool.and_eq_true] at h
    rw [List.forall_mem_cons]
    exact ⟨h.1, ih h.2⟩

/-- A list is read item by item. -/
theorem asList_of_forall₂ {α : Type} {convert : Tree → Except Error α} {parts : List α}
    {items : List Tree} (h : List.Forall₂ (fun part item ↦ convert item = .ok part) parts items) :
    (list items none).asList convert = .ok parts := by
  have hitems : items.mapM convert = .ok parts := by
    induction h with
    | nil => rfl
    | cons hitem _ ih =>
      rw [List.mapM_cons, hitem, ih]
      rfl
  rw [asList, hitems]
  rfl

end Tree

namespace Record

/-! ### One field -/

section fields

variable {σ α : Type} {r : Record σ α} {seen : List String}

/-- A record has the fields that it lists. -/
theorem has_iff {name : String} : r.has name ↔ name ∈ r.fields.map Field.name := by
  simp [has]

/-- A record of which no needed field is left out is complete. -/
theorem complete_of_seen (h : ∀ field ∈ r.fields, field.required → field.name ∈ seen)
    (absent : String → Problem) (a : α) : r.complete absent seen a = .ok a := by
  have hfind : r.fields.find? (fun field ↦ field.required && !seen.contains field.name) = none := by
    rw [List.find?_eq_none]
    intro field hf
    simpa using h field hf
  rw [complete, hfind]

end fields

variable {α : Type} {r : Record Tree α} {key : String} {tree : Tree} {seen : List String} {a : α}

/-- A known field is taken when it is given first. -/
theorem take_known (hk : r.has key) (hs : key ∉ seen) :
    r.take (seen, a) (some key, tree) = (r.set key tree a).map (fun b ↦ (key :: seen, b)) := by
  have hseen : ¬ (seen.contains key = true) := by simpa using hs
  simp only [take, readContent, Except.mapError, bind, Except.bind, if_pos hk, if_neg hseen]
  cases r.set key tree a <;> rfl

/-- A known field is refused when it is given again. -/
theorem take_again (hk : r.has key) (hs : key ∈ seen) :
    r.take (seen, a) (some key, tree) = .error (.problem (.duplicateField key)) := by
  have hseen : seen.contains key = true := by simpa using hs
  simp only [take, readContent, Except.mapError, bind, Except.bind, if_pos hk, if_pos hseen]

private theorem take_other (hk : r.has key = false) (ht : tree.isWhole) :
    r.take (seen, a) (some key, tree) = .ok (seen, a) := by
  have hother : ¬ (r.has key = true) := by simpa using hk
  simp only [take, readContent, Except.mapError, bind, Except.bind, if_neg hother,
    Tree.skip_of_isWhole ht]
  rfl

/-- What an object gives behind some fields is read where those were taken. -/
theorem ofTree_append {fixed rest : List (Option String × Tree)}
    (hfixed : fixed.foldlM r.take ([], r.blank) = .ok (seen, a)) (hk : r.has key)
    (hs : key ∉ seen) :
    r.ofTree (.object (fixed ++ (some key, tree) :: rest) none) =
      (do
        let b ← r.set key tree a
        let last ← rest.foldlM r.take (key :: seen, b)
        r.complete .missingField last.1 last.2) := by
  rw [ofTree, List.foldlM_append, hfixed]
  show (((some key, tree) :: rest).foldlM r.take (seen, a) >>= _) = _
  rw [List.foldlM_cons, take_known hk hs]
  cases r.set key tree a with
  | error error => rfl
  | ok b => rfl

/-- A record is read from the tree that a text is written for. -/
theorem ofText_of_written {text : List Char} (h : tree.Written text) :
    r.ofText text = r.ofTree tree := by
  rw [ofText, h.read_eq]
  cases r.ofTree tree <;> rfl

/-! ### All fields -/

variable {Tells : String → Tree → Prop} {fields : List (String × Tree)}

/-- Fields that describe a record: each known field is given at most once, with a tree that tells
its value. -/
structure Describes (r : Record Tree α) (Tells : String → Tree → Prop)
    (fields : List (String × Tree)) : Prop where
  once : ∀ field ∈ r.fields, (fields.map Prod.fst).count field.name ≤ 1
  told : ∀ field ∈ fields, r.has field.1 → Tells field.1 field.2

/-- The fields of a record describe it in declared order. -/
theorem describes_of_fields (hkeys : fields.map Prod.fst = r.fields.map Field.name)
    (hn : (r.fields.map Field.name).Nodup) (ht : ∀ field ∈ fields, Tells field.1 field.2) :
    r.Describes Tells fields where
  once field _ := by
    rw [hkeys]
    exact List.nodup_iff_count.mp hn field.name
  told field hm _ := ht field hm

/-- An object that describes a record and leaves out no known field. -/
def IsRow (r : Record Tree α) (Tells : String → Tree → Prop) (tree : Tree) : Prop :=
  ∃ fields, tree = .ofFields fields ∧ r.Describes Tells fields ∧
    ∀ field ∈ r.fields, field.name ∈ fields.map Prod.fst

/-- The fields of a record make a row in declared order. -/
theorem isRow_of_fields (hkeys : fields.map Prod.fst = r.fields.map Field.name)
    (hn : (r.fields.map Field.name).Nodup) (ht : ∀ field ∈ fields, Tells field.1 field.2) :
    r.IsRow Tells (.ofFields fields) := by
  refine ⟨fields, rfl, describes_of_fields hkeys hn ht, ?_⟩
  intro field hm
  rw [hkeys]
  exact List.mem_map_of_mem hm

/-- What is read behind given names: it starts blank, a known field that is told is filled in, and
a name that is not known changes nothing. -/
structure Fills (r : Record Tree α) (Tells : String → Tree → Prop) (state : List String → α) :
    Prop where
  blank : state [] = r.blank
  known : ∀ {key : String} {tree : Tree} (given : List String), tree.isWhole → Tells key tree →
    r.set key tree (state given) = .ok (state (key :: given))
  other : ∀ {key : String} (given : List String), r.has key = false →
    state (key :: given) = state given

namespace Fills

variable {state : List String → α}

private theorem foldlM_take (hf : r.Fills Tells state) (hd : r.Describes Tells fields)
    (hw : ∀ field ∈ fields, field.2.isWhole) (hs : ∀ name ∈ seen, name ∉ fields.map Prod.fst)
    (given : List String) :
    (fields.map (fun field ↦ (some field.1, field.2))).foldlM r.take (seen, state given) =
      .ok (((fields.map Prod.fst).filter r.has).reverse ++ seen,
        state ((fields.map Prod.fst).reverse ++ given)) := by
  -- Names that are not known are in `given` and not in `seen`, so both are kept for every start.
  induction fields generalizing seen given with
  | nil => rfl
  | cons field fields ih =>
    rw [List.forall_mem_cons] at hw
    have hrest : r.Describes Tells fields := by
      refine ⟨?_, fun other ho ↦ hd.told other (List.mem_cons_of_mem _ ho)⟩
      intro known hm
      exact Nat.le_trans List.count_le_count_cons (hd.once known hm)
    simp only [List.map_cons, List.foldlM_cons, List.reverse_cons, List.append_assoc]
    cases hk : r.has field.1 with
    | false =>
      rw [take_other hk hw.1, List.filter_cons_of_neg (by simp [hk]), ← hf.other given hk]
      apply ih hrest hw.2
      intro name hname hm
      exact hs name hname (List.mem_cons_of_mem _ hm)
    | true =>
      have hnew : field.1 ∉ seen := fun hm ↦ hs _ hm List.mem_cons_self
      have honce : field.1 ∉ fields.map Prod.fst := by
        obtain ⟨known, hm, hname⟩ := List.mem_map.mp (has_iff.mp hk)
        have hcount := hd.once known hm
        rw [hname, List.map_cons, List.count_cons_self] at hcount
        rw [← List.count_eq_zero]
        omega
      rw [take_known hk hnew, hf.known given hw.1 (hd.told field List.mem_cons_self hk),
        List.filter_cons_of_pos hk, List.reverse_cons, List.append_assoc]
      apply ih hrest hw.2
      intro name hname
      rcases List.mem_cons.mp hname with rfl | hname
      · exact honce
      · intro hm
        exact hs name hname (List.mem_cons_of_mem _ hm)

/-- A record is read from the fields that describe it, if no needed field is left out. -/
theorem ofTree_eq (hf : r.Fills Tells state) (hd : r.Describes Tells fields)
    (hw : (Tree.ofFields fields).isWhole)
    (hn : ∀ field ∈ r.fields, field.required → field.name ∈ fields.map Prod.fst) :
    r.ofTree (.ofFields fields) = .ok (state (fields.map Prod.fst).reverse) := by
  have hfold := hf.foldlM_take hd (Tree.isWhole_of_mem_fields hw) (List.forall_mem_nil _) []
  rw [List.append_nil, List.append_nil, hf.blank] at hfold
  rw [Tree.ofFields, ofTree, hfold]
  apply complete_of_seen
  intro field hm hr
  rw [List.mem_reverse, List.mem_filter]
  exact ⟨hn field hm hr, has_iff.mpr (List.mem_map_of_mem hm)⟩

/-- A record is read from an object that leaves out no known field. -/
theorem ofTree_row (hf : r.Fills Tells state) (h : r.IsRow Tells tree) (hw : tree.isWhole)
    (ha : ∀ given, (∀ field ∈ r.fields, field.name ∈ given) → state given = a) :
    r.ofTree tree = .ok a := by
  obtain ⟨fields, rfl, hd, hall⟩ := h
  rw [hf.ofTree_eq hd hw (fun field hm _ ↦ hall field hm),
    ha _ (fun field hm ↦ List.mem_reverse.mpr (hall field hm))]

end Fills

/-- Rows are read one by one. -/
theorem asList_rows {Tells : α → String → Tree → Prop} {parts : List α} {items : List Tree}
    (rows : List.Forall₂ (fun part item ↦ r.IsRow (Tells part) item) parts items)
    (hw : (Tree.list items none).isWhole)
    (hread : ∀ part ∈ parts, ∀ item, r.IsRow (Tells part) item → item.isWhole →
      r.ofTree item = .ok part) :
    (Tree.list items none).asList r.ofTree = .ok parts := by
  apply Tree.asList_of_forall₂
  have hwhole := Tree.isWhole_of_mem_items hw
  clear hw
  induction rows with
  | nil => exact .nil
  | cons hrow _ ih =>
    rw [List.forall_mem_cons] at hread hwhole
    exact .cons (hread.1 _ hrow hwhole.1) (ih hread.2 hwhole.2)

/-! ### Records of three texts -/

/-- Trees that tell texts, each under its key. -/
inductive TellsTexts (texts : List (String × String)) : String → Tree → Prop where
  | intro {key text : String} (mem : (key, text) ∈ texts) : TellsTexts texts key (.text (some text))

/-- A record that is put together from the texts of its three fields. -/
structure Triple (r : Record Tree α) (make : String → String → String → α) (x y z : String) :
    Prop where
  names : r.fields.map Field.name = [x, y, z]
  nodup : [x, y, z].Nodup
  set_first : ∀ text a b c, r.set x (.text (some text)) (make a b c) = .ok (make text b c)
  set_second : ∀ text a b c, r.set y (.text (some text)) (make a b c) = .ok (make a text c)
  set_third : ∀ text a b c, r.set z (.text (some text)) (make a b c) = .ok (make a b text)

namespace Triple

variable {make : String → String → String → α} {x y z : String}

/-- Three texts are filled in one by one. -/
theorem fills (h : r.Triple make x y z) {a b c : String} (hb : r.blank = make a b c)
    (s t u : String) :
    r.Fills (TellsTexts [(x, s), (y, t), (z, u)])
      (fun keys ↦ make (if x ∈ keys then s else a) (if y ∈ keys then t else b)
        (if z ∈ keys then u else c)) where
  blank := by simp [hb]
  known := by
    intro key tree keys _ htells
    have hn := h.nodup
    simp only [List.nodup_cons, List.mem_cons, List.not_mem_nil, or_false, not_or] at hn
    obtain ⟨⟨hxy, hxz⟩, hyz, _⟩ := hn
    cases htells with
    | intro mem =>
      simp only [List.mem_cons, Prod.mk.injEq, List.not_mem_nil, or_false] at mem
      rcases mem with ⟨rfl, rfl⟩ | ⟨rfl, rfl⟩ | ⟨rfl, rfl⟩
      · rw [h.set_first]
        simp [Ne.symm hxy, Ne.symm hxz]
      · rw [h.set_second]
        simp [hxy, Ne.symm hyz]
      · rw [h.set_third]
        simp [hxz, hyz]
  other := by
    intro key keys hk
    have hne : x ≠ key ∧ y ≠ key ∧ z ≠ key := by
      have hnot : key ∉ r.fields.map Field.name := by
        rw [← has_iff, hk]
        exact Bool.false_ne_true
      rw [h.names] at hnot
      simpa [eq_comm] using hnot
    simp [hne]

/-- Three texts are read from a row that tells them. -/
theorem ofTree_row (h : r.Triple make x y z) {a b c : String} (hb : r.blank = make a b c)
    {s t u : String} (hrow : r.IsRow (TellsTexts [(x, s), (y, t), (z, u)]) tree)
    (hw : tree.isWhole) : r.ofTree tree = .ok (make s t u) := by
  apply (h.fills hb s t u).ofTree_row hrow hw
  intro keys hall
  have hnames : ∀ name ∈ [x, y, z], name ∈ keys := by
    rw [← h.names]
    exact List.forall_mem_map.mpr hall
  simp only [List.forall_mem_cons] at hnames
  simp [hnames]

/-- Three texts in declared order make a row. -/
theorem isRow (h : r.Triple make x y z) (s t u : String) :
    r.IsRow (TellsTexts [(x, s), (y, t), (z, u)])
      (.ofFields [(x, .text (some s)), (y, .text (some t)), (z, .text (some u))]) := by
  have htells : ∀ field ∈ [(x, Tree.text (some s)), (y, .text (some t)), (z, .text (some u))],
      TellsTexts [(x, s), (y, t), (z, u)] field.1 field.2 := by
    simp only [List.forall_mem_cons]
    exact ⟨.intro (by simp), .intro (by simp), .intro (by simp), List.forall_mem_nil _⟩
  refine isRow_of_fields ?_ ?_ htells
  · exact h.names.symm
  · rw [h.names]
    exact h.nodup

end Triple

end Record

end Blockwright.Json
