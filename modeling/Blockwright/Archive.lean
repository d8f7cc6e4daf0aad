import Blockwright.Failure
import Blockwright.Ordered

/-!
# Archives

An archive holds entries, each under a path of its own. An entry whose path is taken is refused.
A table of entries holds them in the order of their paths, and there a later entry replaces an
earlier one.
-/

namespace Blockwright

/-- A file inside an archive. -/
structure Entry where
  path : String
  content : ByteArray

/-- The entry of a text. -/
def Entry.ofText (path content : String) : Entry := ⟨path, content.toUTF8⟩

/-- Entries in the order in which they were added, no two under one path. -/
structure Archive where
  entries : List Entry
  distinct : (entries.map Entry.path).Nodup

namespace Archive

/-- The archive of no entries. -/
def empty : Archive := ⟨[], List.nodup_nil⟩

/-- An archive with one more entry. -/
def add (a : Archive) (entry : Entry) : Except Failure Archive :=
  if taken : entry.path ∈ a.entries.map Entry.path then .error (.duplicateEntry entry.path)
  else .ok {
    entries := a.entries ++ [entry]
    distinct := by
      rw [List.map_append, List.nodup_append]
      refine ⟨a.distinct, List.pairwise_singleton _ _, fun path found other h same ↦ taken ?_⟩
      rw [List.map_singleton, List.mem_singleton] at h
      rw [← h, ← same]
      exact found }

/-- An entry is added at the end exactly when its path is not taken. -/
theorem add_eq_ok_iff {a b : Archive} {entry : Entry} :
    a.add entry = .ok b ↔
      entry.path ∉ a.entries.map Entry.path ∧ b.entries = a.entries ++ [entry] := by
  obtain ⟨entries, distinct⟩ := b
  rw [add]
  split
  · next taken => simp [taken]
  · next free => simp [free, eq_comm]

/-- The archive of some entries, added one after the other. -/
def ofEntries (entries : List Entry) : Except Failure Archive := entries.foldlM add empty

end Archive

/-- Entries by path, in ascending order of the paths. -/
abbrev EntryTable := List (String × ByteArray)

namespace EntryTable

/-- A table with one more entry. -/
def add (table : EntryTable) (entry : Entry) : EntryTable :=
  Ordered.insert entry.path entry.content table

/-- The table of some entries, added one after the other. -/
def ofEntries (entries : List Entry) : EntryTable := entries.foldl add []

/-- The content under a path. -/
def get? (table : EntryTable) (path : String) : Option ByteArray := Ordered.get? path table

/-- The content under a path, if it is a text. -/
def text? (table : EntryTable) (path : String) : Option String :=
  (table.get? path).bind String.fromUTF8?

end EntryTable

/-- The entries of an archive by path. -/
def Archive.table (a : Archive) : EntryTable := .ofEntries a.entries

end Blockwright
