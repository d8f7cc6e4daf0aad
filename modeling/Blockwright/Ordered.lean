/-!
# Lists in the order of their names

Sets of names and tables keyed by names are lists in ascending order of the names, each name at
most once. Names are ordered by code points, which is the order of their UTF-8 bytes.
-/

namespace Blockwright.Ordered

variable {β : Type}

/-- A table with one more entry; an entry of the same name is replaced. -/
def insert (name : String) (value : β) : List (String × β) → List (String × β)
  | [] => [(name, value)]
  | (n, v) :: table =>
    if name < n then (name, value) :: (n, v) :: table
    else if name = n then (name, value) :: table
    else (n, v) :: insert name value table

/-- The value that a table has under a name. -/
def get? (name : String) (table : List (String × β)) : Option β :=
  (table.find? (fun entry ↦ entry.1 == name)).map (·.2)

/-- An added entry is found under its name and hides no entry of another name. -/
theorem get?_insert (name other : String) (value : β) (table : List (String × β)) :
    get? other (insert name value table) =
      if other = name then some value else get? other table := by
  induction table with
  | nil =>
    by_cases h : other = name
    · simp [insert, get?, h]
    · simp [insert, get?, h, Ne.symm h]
  | cons entry table ih =>
    obtain ⟨n, v⟩ := entry
    simp only [insert]
    split
    · by_cases h : other = name
      · simp [get?, h]
      · simp [get?, h, Ne.symm h]
    · split
      · next hn =>
        subst hn
        by_cases h : other = name
        · simp [get?, h]
        · simp [get?, h, Ne.symm h]
      · next hn =>
        by_cases h : other = n
        · simp [get?, h, Ne.symm hn]
        · simpa [get?, Ne.symm h] using ih

/-- The table of some entries; of several entries of one name it keeps the last. -/
def ofList (entries : List (String × β)) : List (String × β) :=
  entries.foldl (fun table entry ↦ insert entry.1 entry.2 table) []

/-- A set of names with one more name. -/
def insertName (name : String) : List String → List String
  | [] => [name]
  | n :: names =>
    if name < n then name :: n :: names
    else if name = n then n :: names
    else n :: insertName name names

/-- A set with one more name holds that name and those it held before. -/
theorem mem_insertName {name other : String} {names : List String} :
    other ∈ insertName name names ↔ other = name ∨ other ∈ names := by
  induction names with
  | nil => simp [insertName]
  | cons n names ih =>
    rw [insertName]
    split
    · simp
    · split
      · next h => simp [h]
      · simp [ih, or_left_comm]

/-- Adding a name keeps the order. -/
theorem pairwise_insertName (name : String) {names : List String}
    (h : names.Pairwise (· < ·)) : (insertName name names).Pairwise (· < ·) := by
  induction names with
  | nil => exact List.pairwise_singleton _ _
  | cons n names ih =>
    obtain ⟨hn, hrest⟩ := List.pairwise_cons.mp h
    rw [insertName]
    split
    · next hlt =>
      rw [List.pairwise_cons]
      refine ⟨?_, h⟩
      intro other ho
      rcases List.mem_cons.mp ho with rfl | ho
      · exact hlt
      · exact String.lt_trans hlt (hn other ho)
    · split
      · exact h
      · next hle hne =>
        rw [List.pairwise_cons]
        refine ⟨?_, ih hrest⟩
        intro other ho
        rcases mem_insertName.mp ho with rfl | ho
        · exact Std.lt_of_le_of_ne (String.not_lt.mp hle) (Ne.symm hne)
        · exact hn other ho

private theorem map_fst_insert (name : String) (value : β) (table : List (String × β)) :
    (insert name value table).map Prod.fst = insertName name (table.map Prod.fst) := by
  induction table with
  | nil => rfl
  | cons first table ih =>
    simp only [insert, insertName, List.map_cons]
    split
    · rfl
    · split
      · next h => rw [List.map_cons, h]
      · rw [List.map_cons, ih]

/-- The names of a table are in ascending order, each once. -/
theorem pairwise_ofList (entries : List (String × β)) :
    ((ofList entries).map Prod.fst).Pairwise (· < ·) := by
  have hfold (table : List (String × β)) (h : (table.map Prod.fst).Pairwise (· < ·)) :
      ((entries.foldl (fun table entry ↦ insert entry.1 entry.2 table) table).map
        Prod.fst).Pairwise (· < ·) := by
    induction entries generalizing table with
    | nil => exact h
    | cons entry entries ih =>
      apply ih
      rw [map_fst_insert]
      exact pairwise_insertName entry.1 h
  exact hfold [] List.Pairwise.nil

end Blockwright.Ordered
