import Blockwright.Proofs.Packing

/-!
# Identifiers reach only the form

Where the identifiers of components come from makes no difference but to the identifiers. Two
generators with the same tables and any two supplies refuse the same projects for the same reason,
and what they write differs in the form alone, and there in the identifiers of components alone.
-/

namespace Blockwright

open Script

/-! ### Forms without identifiers -/

/-- A component without its identifier. -/
def Component.erased (c : Component) : Component := { c with uuid := "" }

/-- A form without the identifiers of its components. -/
def Form.erased (f : Form) : Form :=
  { f with screen := { f.screen with components := f.screen.components.map Component.erased } }

section forms

variable {σ τ : Type} (c : Catalog) (supply : Supply σ) (other : Supply τ)

private theorem Catalog.erased_component (name uuid uuid' : String) :
    (c.component name uuid).erased = (c.component name uuid').erased := by
  unfold component
  dsimp only
  split
  · rfl
  · split <;> rfl

private theorem Catalog.map_erased_components (names : List String) (s : σ) (t : τ) :
    (c.components supply names s).1.map Component.erased =
      (c.components other names t).1.map Component.erased := by
  induction names generalizing s t with
  | nil => rfl
  | cons name names ih =>
    have hname := c.erased_component name (supply s).1 (other t).1
    simp only [components, List.map_cons, hname, ih (supply s).2 (other t).2]

/-- Apart from identifiers, the form of a program depends on no supply. -/
theorem Form.erased_ofProgram (p : Program) (s : σ) (t : τ) :
    (Form.ofProgram c supply p s).1.erased = (Form.ofProgram c other p t).1.erased := by
  have h := c.map_erased_components supply other p.placed s t
  simp only [Form.ofProgram, Form.erased, h]

end forms

/-! ### Entries that differ under one path -/

/-- Two entries have one path and hold the same, unless it is the given path. -/
structure Entry.Like (path : String) (e f : Entry) : Prop where
  path_eq : e.path = f.path
  content_eq : e.path ≠ path → e.content = f.content

private theorem Entry.Like.refl (path : String) (e : Entry) :
    Entry.Like path e e := ⟨rfl, fun _ ↦ rfl⟩

private theorem Entry.Like.ofText (path content content' : String) :
    Entry.Like path (.ofText path content) (.ofText path content') :=
  ⟨rfl, fun h ↦ absurd rfl h⟩

/-- A sink whose entries are seen by `view` cannot tell entries apart that are alike: it takes both
or refuses both for one reason, and holds the like. -/
def Sink.Blind {κ : Type} (sink : Sink κ) (view : κ → List Entry) (path : String) : Prop :=
  ∀ e f k l, Entry.Like path e f → List.Forall₂ (Entry.Like path) (view k) (view l) →
    (sink e k).1 = (sink f l).1 ∧
      List.Forall₂ (Entry.Like path) (view (sink e k).2) (view (sink f l).2)

private theorem Sink.Blind.addAll {κ : Type} {sink : Sink κ} {view : κ → List Entry} {path : String}
    (h : sink.Blind view path) {entries others : List Entry} {k l : κ}
    (he : List.Forall₂ (Entry.Like path) entries others)
    (hk : List.Forall₂ (Entry.Like path) (view k) (view l)) :
    (sink.addAll entries k).1 = (sink.addAll others l).1 ∧
      List.Forall₂ (Entry.Like path) (view (sink.addAll entries k).2)
        (view (sink.addAll others l).2) := by
  induction he generalizing k l with
  | nil => exact ⟨rfl, hk⟩
  | @cons e f entries others hhead htail ih =>
    have hstep := h e f k l hhead hk
    rw [Sink.addAll, Sink.addAll]
    generalize sink e k = taken, sink f l = taken' at hstep ⊢
    obtain ⟨result, k⟩ := taken
    obtain ⟨result', l⟩ := taken'
    obtain ⟨rfl, hview⟩ := hstep
    cases result with
    | error failure => exact ⟨rfl, hview⟩
    | ok _ => exact ih hview

private theorem Entry.Like.map_path_eq {path : String} {entries others : List Entry}
    (h : List.Forall₂ (Entry.Like path) entries others) :
    entries.map Entry.path = others.map Entry.path := by
  induction h with
  | nil => rfl
  | cons hhead _ ih => rw [List.map_cons, List.map_cons, hhead.path_eq, ih]

/-- An archive looks at paths only. -/
theorem Archive.blind_sink (path : String) : Archive.sink.Blind Archive.entries path := by
  intro e f a b he hview
  have htaken : e.path ∈ a.entries.map Entry.path ↔ f.path ∈ b.entries.map Entry.path := by
    rw [he.path_eq, Entry.Like.map_path_eq hview]
  unfold sink add
  by_cases ht : e.path ∈ a.entries.map Entry.path
  · rw [dif_pos ht, dif_pos (htaken.mp ht), he.path_eq]
    exact ⟨rfl, hview⟩
  · rw [dif_neg ht, dif_neg (fun hf ↦ ht (htaken.mpr hf))]
    exact ⟨rfl, List.rel_append hview (.cons he .nil)⟩

/-- The entries of a table. -/
def EntryTable.entries (table : EntryTable) : List Entry :=
  table.map (fun entry ↦ ⟨entry.1, entry.2⟩)

/-- A table looks at paths only. -/
theorem EntryTable.blind_sink (path : String) : EntryTable.sink.Blind EntryTable.entries path := by
  intro e f table other he hview
  refine ⟨rfl, ?_⟩
  show List.Forall₂ (Entry.Like path) (entries (Ordered.insert e.path e.content table))
    (entries (Ordered.insert f.path f.content other))
  unfold entries at hview ⊢
  rw [List.forall₂_map_left_iff, List.forall₂_map_right_iff] at hview ⊢
  rw [← he.path_eq]
  induction hview with
  | nil => exact .cons ⟨rfl, he.content_eq⟩ .nil
  | @cons first first' table other hhead htail ih =>
    obtain ⟨name, content⟩ := first
    obtain ⟨name', content'⟩ := first'
    obtain rfl : name = name' := hhead.path_eq
    rw [Ordered.insert, Ordered.insert]
    split
    · exact .cons ⟨rfl, he.content_eq⟩ (.cons hhead htail)
    · split
      · exact .cons ⟨rfl, he.content_eq⟩ htail
      · exact .cons hhead ih

private theorem EntryTable.mem_entries_foldl_add {entry : Entry} {behind : List Entry}
    (h : ∀ other ∈ behind, other.path ≠ entry.path) (before : List Entry) (table : EntryTable) :
    entry ∈ entries ((before ++ entry :: behind).foldl add table) := by
  have hleft (table : EntryTable) :
      (behind.foldl add table).get? entry.path = table.get? entry.path := by
    induction behind generalizing table with
    | nil => rfl
    | cons other behind ih =>
      obtain ⟨hne, hrest⟩ := List.forall_mem_cons.mp h
      rw [List.foldl_cons, ih hrest, get?, add, Ordered.get?_insert, if_neg hne.symm, get?]
  have hget : ((before ++ entry :: behind).foldl add table).get? entry.path =
      some entry.content := by
    rw [List.foldl_append, List.foldl_cons, hleft, get?, add, Ordered.get?_insert, if_pos rfl]
  exact List.mem_map.mpr ⟨_, Ordered.mem_of_get? hget, rfl⟩

/-! ### Two supplies -/

namespace Generator

variable {σ τ κ : Type}

/-- The form that a generator builds for a project. -/
def form (g : Generator σ) (job : Job) (s : σ) : Form :=
  (Form.ofProgram (.ofExtensions g.config job.extensions) g.supply job.program s).1

/-- A project is refused, or made of the entries that every project has and those of its payloads.
Which of the two it is, why it is refused and what the payloads are depends on no supply. -/
theorem make_cases (job : Job) :
    (∃ failure, ∀ (σ : Type) (g : Generator σ) (s : σ), (g.make job s).1 = .error failure) ∨
    ∃ payloads, (Extension.payloads job.extensions).mapM (Payload.entry job.files) = .ok payloads ∧
      ∀ (σ : Type) (g : Generator σ) (s : σ), ∃ project, (g.make job s).1 = .ok project ∧
        project.entries = g.fixedEntries s job ++ payloads := by
  cases hc : job.program.check with
  | error failure =>
    refine .inl ⟨failure, fun σ g s ↦ ?_⟩
    rw [make, Project.make_of_check _ _ _ _ hc]
  | ok _ =>
    cases hp : (Extension.payloads job.extensions).mapM (Payload.entry job.files) with
    | error failure =>
      refine .inl ⟨failure, fun σ g s ↦ ?_⟩
      rw [make, Project.make_of_payload _ _ _ _ hc hp]
    | ok payloads =>
      refine .inr ⟨payloads, rfl, fun σ g s ↦ ?_⟩
      rw [make, Project.make_of_read _ _ _ _ hc hp]
      exact ⟨_, rfl, rfl⟩

private theorem write_of_not_make {g : Generator σ} {job : Job} {s : σ} {failure : Failure}
    (h : (g.make job s).1 = .error failure) (sink : Sink κ) (k : κ) :
    g.write job sink (s, k) = (.error failure, (g.make job s).2, k) := by
  have hmake : g.make job s = (.error failure, (g.make job s).2) := Prod.ext h rfl
  rw [write, hmake]

/-- Two writings end in the same way, and what they wrote lies under the same paths and is the same
under all of them but one. -/
structure AlikeBut (path : String) (view : κ → List Entry) (written : Except Failure Unit × σ × κ)
    (written' : Except Failure Unit × τ × κ) : Prop where
  result_eq : written.1 = written'.1
  entries : List.Forall₂ (Entry.Like path) (view written.2.2) (view written'.2.2)

section supplies

variable (config : Config) (supply : Supply σ) (other : Supply τ) (job : Job) (s : σ) (t : τ)

private theorem forall₂_fixedEntries : List.Forall₂ (Entry.Like config.naming.formPath)
    (fixedEntries ⟨config, supply⟩ s job) (fixedEntries ⟨config, other⟩ t job) :=
  .cons (.refl _ _) (.cons (.ofText _ _ _)
    (.cons (.refl _ _) (.cons (.refl _ _) (.cons (.refl _ _) .nil))))

/-- A sink that looks at paths only is written alike. -/
theorem alikeBut_write {sink : Sink κ} {view : κ → List Entry}
    (h : sink.Blind view config.naming.formPath) (k : κ) :
    AlikeBut config.naming.formPath view (write ⟨config, supply⟩ job sink (s, k))
      (write ⟨config, other⟩ job sink (t, k)) := by
  have hsame (entries : List Entry) :
      List.Forall₂ (Entry.Like config.naming.formPath) entries entries :=
    List.forall₂_same.mpr fun entry _ ↦ .refl _ entry
  rcases make_cases job with ⟨failure, hf⟩ | ⟨payloads, -, hmade⟩
  · rw [write_of_not_make (hf σ _ s), write_of_not_make (hf τ _ t)]
    exact ⟨rfl, hsame _⟩
  · obtain ⟨project, hm, he⟩ := hmade σ ⟨config, supply⟩ s
    obtain ⟨project', hm', he'⟩ := hmade τ ⟨config, other⟩ t
    have hentries : List.Forall₂ (Entry.Like config.naming.formPath)
        project.entries project'.entries := by
      rw [he, he']
      exact List.rel_append (forall₂_fixedEntries config supply other job s t) (hsame payloads)
    rw [write_of_make hm, write_of_make hm']
    obtain ⟨hresult, hview⟩ := h.addAll hentries (hsame (view k))
    exact ⟨hresult, hview⟩

end supplies

/-! ### Where the form is found -/

section form

variable {g : Generator σ} {job : Job} {s : σ}

/-- An archive that a whole project was written into holds the form. -/
theorem form_mem_archive (h : (g.write job Archive.sink (s, .empty)).1 = .ok ()) :
    .ofText g.config.naming.formPath (g.form job s).written ∈
      (g.write job Archive.sink (s, .empty)).2.2.entries := by
  rcases make_cases job with ⟨failure, hf⟩ | ⟨payloads, -, hmade⟩
  · rw [write_of_not_make (hf σ g s)] at h
    cases h
  · obtain ⟨project, hm, he⟩ := hmade σ g s
    rw [write_of_make hm] at h ⊢
    have hadd := Archive.addAll_sink project.entries .empty
    rw [show (Archive.sink.addAll project.entries .empty).1 = .ok () from h] at hadd
    obtain ⟨-, hentries⟩ := Archive.foldlM_add_eq_ok_iff.mp hadd.symm
    rw [hentries, he]
    exact List.mem_append_right _ (List.mem_append_left _ (.tail _ (.head _)))

/-- A table that a project was written into holds the form, whatever the payloads are. -/
theorem form_mem_table (h : (g.write job EntryTable.sink (s, [])).1 = .ok ()) :
    .ofText g.config.naming.formPath (g.form job s).written ∈
      EntryTable.entries (g.write job EntryTable.sink (s, [])).2.2 := by
  rcases make_cases job with ⟨failure, hf⟩ | ⟨payloads, hp, hmade⟩
  · rw [write_of_not_make (hf σ g s)] at h
    cases h
  · obtain ⟨project, hm, he⟩ := hmade σ g s
    have hfixed := g.config.naming.nodup_fixedPaths
    rw [Naming.fixedPaths, List.nodup_cons, List.nodup_cons] at hfixed
    have hpayload : ∀ entry ∈ payloads, entry.path ≠ g.config.naming.formPath := by
      intro entry hentry
      have hpath := List.mem_map_of_mem (f := Entry.path) hentry
      rw [Payload.map_path_entries (Payload.mapM_entry_eq_ok_iff.mp hp)] at hpath
      obtain ⟨payload, -, hpath⟩ := List.mem_map.mp hpath
      rw [← hpath]
      exact (g.config.naming.ne_of_head?_ne payload.path (by simp [Payload.path])).1
    -- Of the entries behind the form none has its path.
    have hbehind : ∀ entry ∈ (g.fixedEntries s job).drop 2 ++ payloads,
        entry.path ≠ g.config.naming.formPath := by
      intro entry hentry hpath
      rcases List.mem_append.mp hentry with hentry | hentry
      · exact hfixed.2.1 (hpath ▸ List.mem_map_of_mem (f := Entry.path) hentry)
      · exact hpayload entry hentry hpath
    have hsplit : g.fixedEntries s job ++ payloads = (g.fixedEntries s job).take 1 ++
        .ofText g.config.naming.formPath (g.form job s).written ::
          ((g.fixedEntries s job).drop 2 ++ payloads) := rfl
    rw [write_of_make hm, EntryTable.addAll_sink, he, hsplit]
    apply EntryTable.mem_entries_foldl_add
    exact hbehind

end form

/-- Where identifiers come from makes no difference but to the identifiers of components. With any
two supplies a project is written, into an empty archive or an empty table, with the same outcome;
what is written lies under the same paths and is the same under every path but that of the form;
there it is the form that is built, and the two forms are the same without those identifiers. -/
theorem write_any_supply (config : Config) (supply : Supply σ) (other : Supply τ) (job : Job)
    (s : σ) (t : τ) :
    let g : Generator σ := ⟨config, supply⟩
    let g' : Generator τ := ⟨config, other⟩
    let path := config.naming.formPath
    AlikeBut path Archive.entries (g.write job Archive.sink (s, .empty))
      (g'.write job Archive.sink (t, .empty)) ∧
    AlikeBut path EntryTable.entries (g.write job EntryTable.sink (s, []))
      (g'.write job EntryTable.sink (t, [])) ∧
    ((g.write job Archive.sink (s, .empty)).1 = .ok () →
      .ofText path (g.form job s).written ∈
        (g.write job Archive.sink (s, .empty)).2.2.entries) ∧
    ((g.write job EntryTable.sink (s, [])).1 = .ok () →
      .ofText path (g.form job s).written ∈
        EntryTable.entries (g.write job EntryTable.sink (s, [])).2.2) ∧
    (g.form job s).erased = (g'.form job t).erased := by
  intro g g' path
  exact ⟨alikeBut_write config supply other job s t (Archive.blind_sink path) .empty,
    alikeBut_write config supply other job s t (EntryTable.blind_sink path) [],
    form_mem_archive, form_mem_table, Form.erased_ofProgram _ supply other job.program s t⟩

end Generator

end Blockwright
