import Blockwright.Properties
import Mathlib.Data.List.Sort
import Mathlib.Data.String.Basic

/-!
# Sets and tables of names

A set of names is a list in strictly ascending order, which is also the order of the names' bytes.
Adding a name keeps the order, and two sets with the same names are the same list. A table keyed by
names holds the entries that were added to it and no others.
-/

namespace Blockwright.Ordered

/-! ### The order of names -/

private theorem toNat_byte {n : Nat} (h : n < 256) : (UInt8.ofNat n).toNat = n :=
  UInt8.toNat_ofNat_of_lt' h

private theorem utf8EncodeChar_lt {c d : Char} (h : c < d) (bytes others : List UInt8) :
    String.utf8EncodeChar c ++ bytes < String.utf8EncodeChar d ++ others := by
  have hlt : c.val.toNat < d.val.toNat := h
  have hd : d.val.toNat < 0x110000 := by
    have := d.valid
    simp only [UInt32.isValidChar, Nat.isValidChar] at this
    omega
  rw [String.utf8EncodeChar, String.utf8EncodeChar]
  generalize c.val.toNat = m at *
  generalize d.val.toNat = n at *
  -- More bytes start with a greater one; as many bytes compare as the digits that they hold.
  split_ifs <;>
    simp (disch := omega) only [List.cons_append, List.nil_append, List.cons_lt_cons_iff,
      UInt8.lt_iff_toNat_lt, ← UInt8.toNat_inj, toNat_byte, Nat.mod_eq_of_lt] <;>
    omega

private theorem flatMap_utf8EncodeChar_lt {cs ds : List Char} (h : cs < ds) :
    cs.flatMap String.utf8EncodeChar < ds.flatMap String.utf8EncodeChar := by
  induction cs generalizing ds with
  | nil =>
    cases ds with
    | nil => exact absurd h (List.lt_irrefl _)
    | cons d ds =>
      obtain ⟨b, bytes, hb⟩ := List.exists_cons_of_ne_nil (String.utf8EncodeChar_ne_nil (c := d))
      rw [List.flatMap_cons, hb]
      exact List.nil_lt_cons _ _
  | cons c cs ih =>
    cases ds with
    | nil => exact absurd h (List.not_lt_nil _)
    | cons d ds =>
      rw [List.flatMap_cons, List.flatMap_cons]
      rcases List.cons_lt_cons_iff.mp h with hlt | ⟨rfl, hlt⟩
      · exact utf8EncodeChar_lt hlt _ _
      · exact List.append_left_lt (ih hlt)

/-- Names in ascending order have bytes in ascending order. -/
theorem pairwise_toUTF8 {names : List String} (h : names.Pairwise (· < ·)) :
    (names.map (fun name ↦ name.toUTF8.data.toList)).Pairwise (· < ·) := by
  have hbytes (name : String) :
      name.toUTF8.data.toList = name.toList.flatMap String.utf8EncodeChar := by
    rw [String.toUTF8_eq_toByteArray, ← String.utf8Encode_toList, List.utf8Encode,
      List.toList_data_toByteArray]
  rw [List.pairwise_map]
  apply h.imp
  intro name other hlt
  rw [hbytes, hbytes]
  exact flatMap_utf8EncodeChar_lt (String.lt_iff_toList_lt.mp hlt)

/-! ### Numbers in names -/

/-- Different numbers have different decimals, since a number is read back from its digits. -/
theorem injective_toString : Function.Injective (toString : Nat → String) := by
  apply Function.LeftInverse.injective (g := fun text ↦ Nat.ofDigitChars 10 text.toList 0)
  intro n
  dsimp only
  rw [Nat.toString_eq_ofList_toDigits, String.toList_ofList, Nat.ofDigitChars_ten_toDigits]

/-! ### Sets -/

/-- The set of the names of a set and some more. -/
def insertNames (names more : List String) : List String :=
  more.foldl (fun names name ↦ insertName name names) names

/-- Adding some names holds those names and the ones that were there. -/
theorem mem_insertNames {other : String} {names more : List String} :
    other ∈ insertNames names more ↔ other ∈ names ∨ other ∈ more := by
  induction more generalizing names with
  | nil => simp [insertNames]
  | cons name more ih =>
    rw [insertNames, List.foldl_cons]
    change other ∈ insertNames (insertName name names) more ↔ _
    rw [ih, mem_insertName, List.mem_cons, or_assoc, or_left_comm]

private theorem pairwise_insertNames {names : List String} (more : List String)
    (h : names.Pairwise (· < ·)) : (insertNames names more).Pairwise (· < ·) := by
  induction more generalizing names with
  | nil => exact h
  | cons name more ih => exact ih (pairwise_insertName name h)

/-- A set is the list of its names in order. -/
theorem insertNames_eq {names more : List String} (h : names.Pairwise (· < ·))
    (hm : ∀ name, name ∈ names ↔ name ∈ more) : insertNames [] more = names := by
  apply (pairwise_insertNames more List.Pairwise.nil).eq_of_mem_iff h
  intro name
  rw [mem_insertNames, hm]
  simp

/-! ### Tables -/

section tables

variable {β : Type} {name : String} {value : β} {table : List (String × β)}

/-- A table with one more entry holds no further ones. -/
theorem mem_insert {entry : String × β} (h : entry ∈ insert name value table) :
    entry = (name, value) ∨ entry ∈ table := by
  induction table with
  | nil => exact .inl (List.mem_singleton.mp h)
  | cons first table ih =>
    rw [insert] at h
    split at h
    · exact List.mem_cons.mp h
    · split at h
      · exact (List.mem_cons.mp h).imp_right (List.mem_cons_of_mem _)
      · rcases List.mem_cons.mp h with rfl | h
        · exact .inr List.mem_cons_self
        · exact (ih h).imp_right (List.mem_cons_of_mem _)

/-- The table of some entries holds no others. -/
theorem mem_ofList {entries : List (String × β)} {entry : String × β}
    (h : entry ∈ ofList entries) : entry ∈ entries := by
  have hfold (table : List (String × β))
      (hm : entry ∈ entries.foldl (fun table entry ↦ insert entry.1 entry.2 table) table) :
      entry ∈ table ∨ entry ∈ entries := by
    clear h
    induction entries generalizing table with
    | nil => exact .inl hm
    | cons first entries ih =>
      rcases ih _ hm with hm | hm
      · rcases mem_insert hm with rfl | hm
        · exact .inr List.mem_cons_self
        · exact .inl hm
      · exact .inr (List.mem_cons_of_mem _ hm)
  exact (hfold [] h).resolve_left List.not_mem_nil

/-- An entry of a new name comes to those that are there. -/
theorem insert_perm (h : name ∉ table.map Prod.fst) :
    (insert name value table).Perm ((name, value) :: table) := by
  induction table with
  | nil => exact List.Perm.refl _
  | cons first table ih =>
    rw [List.map_cons, List.mem_cons, not_or] at h
    rw [insert]
    split
    · exact List.Perm.refl _
    · rw [if_neg h.1]
      exact ((ih h.2).cons first).trans (List.Perm.swap _ _ _)

/-- The table of entries of different names holds just these. -/
theorem ofList_perm {entries : List (String × β)} (h : (entries.map Prod.fst).Nodup) :
    (ofList entries).Perm entries := by
  have hfold (table : List (String × β))
      (ht : (table.map Prod.fst ++ entries.map Prod.fst).Nodup) :
      (entries.foldl (fun table entry ↦ insert entry.1 entry.2 table) table).Perm
        (table ++ entries) := by
    clear h
    induction entries generalizing table with
    | nil => simp
    | cons entry entries ih =>
      have hmiddle : (table.map Prod.fst ++ entry.1 :: entries.map Prod.fst).Perm
          (entry.1 :: (table.map Prod.fst ++ entries.map Prod.fst)) := List.perm_middle
      have hnew : entry.1 ∉ table.map Prod.fst := by
        intro hm
        exact (List.nodup_append.mp ht).2.2 _ hm entry.1 (by simp) rfl
      have hadd : (insert entry.1 entry.2 table).Perm (entry :: table) := insert_perm hnew
      rw [List.foldl_cons]
      refine (ih _ ?_).trans ((hadd.append_right _).trans List.perm_middle.symm)
      have hkeys := (hadd.map Prod.fst).append_right (entries.map Prod.fst)
      exact (hkeys.trans hmiddle.symm).nodup_iff.mpr ht
  exact hfold [] h

/-- A table is made of its entries in whatever order they are given. -/
theorem ofList_eq_of_perm {entries : List (String × β)}
    (ht : (table.map Prod.fst).Pairwise (· < ·)) (hp : entries.Perm table) :
    ofList entries = table := by
  have hn : (entries.map Prod.fst).Nodup :=
    (hp.map Prod.fst).nodup_iff.mpr (ht.imp (fun h ↦ ne_of_lt h))
  have hperm : (ofList entries).Perm table := (ofList_perm hn).trans hp
  refine hperm.eq_of_pairwise ?_ (List.pairwise_map.mp (pairwise_ofList entries))
    (List.pairwise_map.mp ht)
  intro first second _ _ hlt hgt
  exact absurd hlt (String.lt_asymm hgt)

/-- What is found under a name is an entry of that name. -/
theorem mem_of_get? (h : get? name table = some value) : (name, value) ∈ table := by
  obtain ⟨entry, he, rfl⟩ := Option.map_eq_some_iff.mp h
  have hname : entry.1 = name := by simpa using List.find?_some he
  rw [← hname]
  exact List.mem_of_find?_eq_some he

/-- Something is found under the name of every entry. -/
theorem isSome_get? {entry : String × β} (h : entry ∈ table) : (get? entry.1 table).isSome := by
  rw [get?, Option.isSome_map, List.find?_isSome]
  exact ⟨entry, h, by simp⟩

/-- Where no two entries have one name, an entry is found under its name. -/
theorem get?_of_mem (hn : (table.map Prod.fst).Nodup) (h : (name, value) ∈ table) :
    get? name table = some value := by
  induction table with
  | nil => cases h
  | cons first table ih =>
    rw [List.map_cons, List.nodup_cons] at hn
    rcases List.mem_cons.mp h with rfl | h
    · simp [get?]
    · have hne : first.1 ≠ name := by
        intro he
        rw [he] at hn
        exact hn.1 (List.mem_map_of_mem h)
      rw [get?, List.find?_cons_of_neg (by simpa using hne)]
      exact ih hn.2 h

/-- An entry is in a table exactly if it is found under its name. -/
theorem mem_iff_get? (hn : (table.map Prod.fst).Nodup) :
    (name, value) ∈ table ↔ get? name table = some value :=
  ⟨get?_of_mem hn, mem_of_get?⟩

/-- What is added to a table is found before what was there. -/
theorem get?_foldl_insert (entries table : List (String × β)) :
    get? name (entries.foldl (fun table entry ↦ insert entry.1 entry.2 table) table) =
      (get? name (ofList entries)).or (get? name table) := by
  induction entries generalizing table with
  | nil => rfl
  | cons entry entries ih =>
    rw [ofList, List.foldl_cons, List.foldl_cons, ih, ih (insert entry.1 entry.2 []),
      Option.or_assoc, get?_insert, get?_insert]
    split
    · rfl
    · rfl

/-- Of several entries of one name the last is found. -/
theorem get?_ofList_cons (entry : String × β) (entries : List (String × β)) :
    get? name (ofList (entry :: entries)) =
      (get? name (ofList entries)).or (if name = entry.1 then some entry.2 else none) := by
  rw [ofList, List.foldl_cons, get?_foldl_insert, get?_insert]
  rfl

/-- Two tables hold the same entries under the names of a sort if the same is found there. -/
theorem filter_eq_of_get? {other : List (String × β)} (ht : (table.map Prod.fst).Pairwise (· < ·))
    (ho : (other.map Prod.fst).Pairwise (· < ·)) {keep : String → Bool}
    (h : ∀ name, keep name → get? name table = get? name other) :
    table.filter (fun entry ↦ keep entry.1) = other.filter (fun entry ↦ keep entry.1) := by
  have hnodup {names : List String} (hn : names.Pairwise (· < ·)) : names.Nodup :=
    hn.imp (fun hlt ↦ ne_of_lt hlt)
  have hirrefl : Std.Irrefl (fun first second : String × β ↦ first.1 < second.1) :=
    ⟨fun entry ↦ String.lt_irrefl entry.1⟩
  have hanti : Std.Antisymm (fun first second : String × β ↦ first.1 < second.1) :=
    ⟨fun first second hlt hgt ↦ absurd hlt (String.lt_asymm hgt)⟩
  apply ((List.pairwise_map.mp ht).filter _).eq_of_mem_iff ((List.pairwise_map.mp ho).filter _)
  rintro ⟨name, value⟩
  rw [List.mem_filter, List.mem_filter, mem_iff_get? (hnodup ht), mem_iff_get? (hnodup ho)]
  exact and_congr_left (fun hk ↦ by rw [h name hk])

end tables

end Blockwright.Ordered

/-! ### Properties -/

namespace Blockwright.Properties

/-- Properties are made of their entries in whatever order they are given. -/
theorem ofList_eq_of_perm {p : Properties} {entries : List (String × String)}
    (h : entries.Perm p.entries) : ofList entries = p :=
  Properties.ext (Ordered.ofList_eq_of_perm p.ascending h)

/-- Later entries are found before earlier ones. -/
theorem get?_ofList_append (entries more : List (String × String)) (name : String) :
    (ofList (entries ++ more)).get? name =
      ((ofList more).get? name).or ((ofList entries).get? name) := by
  show Ordered.get? name (Ordered.ofList (entries ++ more)) = _
  rw [Ordered.ofList, List.foldl_append, Ordered.get?_foldl_insert]
  rfl

end Blockwright.Properties
