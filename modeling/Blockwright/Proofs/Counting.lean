import Blockwright.Proofs.Agreement
import Blockwright.Proofs.Supplies

/-!
# Identifiers over the life of a generator

A generator keeps drawing identifiers from one supply, whatever is asked of it. Every project that
gets past its check and the reading of its payloads takes one identifier for each component that it
places, even if its sink then refuses the entries; every other project takes none. So the components
of all forms, in order, have the identifiers that the supply hands out one after the other, and
with a supply that counts up no two of them have the same.
-/

namespace Blockwright

open Script

/-! ### Supplies -/

namespace Supply

variable {σ : Type} (supply : Supply σ)

/-- Where a supply goes on after handing out some identifiers. -/
def advance (supply : Supply σ) : Nat → σ → σ
  | 0, s => s
  | count + 1, s => advance supply count (supply s).2

private theorem take_add (first second : Nat) (s : σ) :
    supply.take (first + second) s =
      supply.take first s ++ supply.take second (supply.advance first s) := by
  induction first generalizing s with
  | zero => rw [Nat.zero_add]; rfl
  | succ first ih =>
    rw [Nat.succ_add, take, take, ih, advance, List.cons_append]

private theorem advance_add (first second : Nat) (s : σ) :
    supply.advance (first + second) s = supply.advance second (supply.advance first s) := by
  induction first generalizing s with
  | zero => rw [Nat.zero_add]; rfl
  | succ first ih => rw [Nat.succ_add, advance, advance, ih]

/-- Counting up adds one for every identifier, up to 64 bits. -/
theorem toNat_advance_counting {count : Nat} {s : UInt64}
    (h : s.toNat + count < UInt64.size) : (counting.advance count s).toNat = s.toNat + count := by
  induction count generalizing s with
  | zero => rfl
  | succ count ih =>
    have hnext : (s + 1).toNat = s.toNat + 1 := by
      rw [UInt64.toNat_add, UInt64.toNat_one]
      exact Nat.mod_eq_of_lt (by rw [UInt64.size] at h; omega)
    rw [advance, counting, ih (by rw [hnext]; omega), hnext]
    omega

/-- The identifiers are the decimals of the numbers passed. -/
theorem take_counting {count : Nat} {s : UInt64} (h : s.toNat + count < UInt64.size) :
    counting.take count s = (List.range' s.toNat count).map toString := by
  induction count with
  | zero => rfl
  | succ count ih =>
    -- The last identifier is split off, since the bound on the ones before it is at hand.
    have hlast : (counting.advance count s).toNat = s.toNat + count :=
      toNat_advance_counting (by omega)
    rw [take_add, ih (by omega), List.range'_concat, List.map_append, Nat.one_mul, ← hlast]
    rfl

/-- Numbers passed are all different, and so are their decimals. -/
theorem nodup_take_counting {count : Nat} {s : UInt64} (h : s.toNat + count < UInt64.size) :
    (counting.take count s).Nodup := by
  rw [take_counting h, List.nodup_map_iff Ordered.injective_toString]
  exact List.nodup_range'

end Supply

/-! ### One project -/

namespace Catalog

variable {σ : Type} (c : Catalog) (supply : Supply σ)

@[simp] private theorem component_uuid (name uuid : String) :
    (c.component name uuid).uuid = uuid := by
  unfold component
  dsimp only
  split
  · rfl
  · split <;> rfl

private theorem map_uuid_components (names : List String) (s : σ) :
    (c.components supply names s).1.map Component.uuid = supply.take names.length s := by
  induction names generalizing s with
  | nil => rfl
  | cons name names ih => simp [components, Supply.take, ih]

private theorem snd_components (names : List String) (s : σ) :
    (c.components supply names s).2 = supply.advance names.length s := by
  induction names generalizing s with
  | nil => rfl
  | cons name names ih => exact ih (supply s).2

end Catalog

instance (p : Program) (event : Event) : Decidable (p.Usable event) :=
  inferInstanceAs (Decidable (_ ∧ _ ∧ _))

namespace Job

variable {job : Job}

/-- A project gets past its check and the reading of its payloads. -/
def Passes (job : Job) : Prop :=
  (∀ event ∈ job.program.events, job.program.Usable event) ∧
    ∀ payload ∈ Extension.payloads job.extensions,
      ∃ content, payload.content job.files = .ok content

private theorem exists_content_iff {payload : Payload}
    {files : String → Except FileFault ByteArray} :
    (∃ content, payload.content files = .ok content) ↔ (payload.content files).toBool := by
  cases payload.content files <;> simp [Except.toBool]

instance (job : Job) : Decidable job.Passes :=
  decidable_of_iff (job.program.events.all (fun event ↦ job.program.Usable event) &&
    (Extension.payloads job.extensions).all (fun payload ↦ (payload.content job.files).toBool))
    (by simp [Passes, exists_content_iff])

/-- A project passes exactly if it is not refused. -/
theorem passes_iff : job.Passes ↔ ¬ ∃ failure, job.Refused failure := by
  have hcontent (payload : Payload) : (¬ ∃ fault, payload.content job.files = .error fault) ↔
      ∃ content, payload.content job.files = .ok content := by
    cases payload.content job.files <;> simp
  rw [exists_refused_iff, not_or]
  simp only [not_exists, not_and, not_not, Passes, ← hcontent]

/-- The components that projects place, one project after the other; those that do not pass place
none. -/
def placed (jobs : List Job) : List String :=
  (jobs.filter (fun job ↦ job.Passes)).flatMap (fun job ↦ job.program.placed)

end Job

namespace Generator

variable {σ κ : Type} (g : Generator σ) {job : Job}

/-- A project that passes is made, with the form among its entries, and takes one identifier for
each component that it places. -/
theorem make_of_passes (h : job.Passes) (s : σ) : ∃ project,
    g.make job s = (.ok project, g.supply.advance job.program.placed.length s) ∧
      .ofText g.config.naming.formPath (g.form job s).written ∈ project.entries := by
  have hcheck : job.program.check = .ok () := Program.check_eq_ok_iff.mpr h.1
  cases hread : (Extension.payloads job.extensions).mapM (Payload.entry job.files) with
  | error failure =>
    exact absurd ⟨failure, Job.refused_iff.mpr (.inr ⟨hcheck, hread⟩)⟩ (Job.passes_iff.mp h)
  | ok payloads =>
    rw [make, Project.make_of_read _ _ _ s hcheck hread]
    refine ⟨_, Prod.ext rfl ?_, ?_⟩
    · exact (Catalog.ofExtensions g.config job.extensions).snd_components g.supply _ s
    · exact List.mem_append_left _ (.tail _ (.head _))

/-! ### Projects one after the other -/

/-- The projects that are made when a generator writes projects one after the other, each with the
form that was built for it. Whether a sink takes the entries makes no difference. -/
def built (g : Generator σ) : List (Job × Sink κ) → σ × κ → List (Form × Project)
  | [], _ => []
  | (job, sink) :: calls, state =>
    match (g.make job state.1).1 with
    | .ok project => (g.form job state.1, project) :: g.built calls (g.write job sink state).2
    | .error _ => g.built calls (g.write job sink state).2

/-- The components of all forms that are built, in order. -/
def components (g : Generator σ) (calls : List (Job × Sink κ)) (state : σ × κ) : List Component :=
  (g.built calls state).flatMap (fun made ↦ made.1.screen.components)

/-- What a generator draws from its supply when it writes projects one after the other. -/
structure Draws (g : Generator σ) (calls : List (Job × Sink κ)) (state : σ × κ)
    (names : List String) : Prop where
  map_name_eq : (g.components calls state).map Component.name = names
  map_uuid_eq : (g.components calls state).map Component.uuid =
    g.supply.take names.length state.1
  supply_eq : (g.writeAll calls state).2.1 = g.supply.advance names.length state.1
  written : ∀ made ∈ g.built calls state,
    .ofText g.config.naming.formPath made.1.written ∈ made.2.entries

section steps

variable (sink : Sink κ) {calls : List (Job × Sink κ)} {state : σ × κ} {names : List String}

/-- A project that passes draws an identifier for each component that it places, and later projects
go on from there. -/
theorem Draws.cons_of_passes (hp : job.Passes)
    (h : g.Draws calls (g.write job sink state).2 names) :
    g.Draws ((job, sink) :: calls) state (job.program.placed ++ names) := by
  obtain ⟨project, hmake, hform⟩ := g.make_of_passes hp state.1
  have hbuilt : g.built ((job, sink) :: calls) state =
      (g.form job state.1, project) :: g.built calls (g.write job sink state).2 := by
    rw [built, hmake]
  -- Identifiers are drawn before the sink sees an entry, so what it answers does not matter.
  have hsupply : (g.write job sink state).2.1 =
      g.supply.advance job.program.placed.length state.1 := by
    rw [write, hmake]
  have hcomponents : g.components ((job, sink) :: calls) state =
      (g.form job state.1).screen.components ++
        g.components calls (g.write job sink state).2 := by
    rw [components, hbuilt]
    rfl
  constructor
  case map_name_eq =>
    rw [hcomponents, List.map_append, h.map_name_eq]
    exact congrArg (· ++ names) (Catalog.map_name_components _ _ _ _)
  case map_uuid_eq =>
    rw [hcomponents, List.map_append, h.map_uuid_eq, List.length_append, Supply.take_add, hsupply]
    exact congrArg (· ++ _) (Catalog.map_uuid_components _ _ _ _)
  case supply_eq =>
    rw [List.length_append, Supply.advance_add, ← hsupply]
    exact h.supply_eq
  case written =>
    rw [hbuilt, List.forall_mem_cons]
    exact ⟨hform, h.written⟩

private theorem Draws.cons_of_not_passes (hp : ¬ job.Passes) (h : g.Draws calls state names) :
    g.Draws ((job, sink) :: calls) state names := by
  obtain ⟨failure, hrefused⟩ := not_not.mp (mt Job.passes_iff.mpr hp)
  have hbuilt : g.built ((job, sink) :: calls) state = g.built calls state := by
    rw [built, g.make_of_refused hrefused, g.write_of_refused hrefused]
  have hcomponents : g.components ((job, sink) :: calls) state = g.components calls state := by
    rw [components, hbuilt]
    rfl
  constructor
  case map_name_eq => rw [hcomponents, h.map_name_eq]
  case map_uuid_eq => rw [hcomponents, h.map_uuid_eq]
  case supply_eq =>
    rw [writeAll, g.write_of_refused hrefused]
    exact h.supply_eq
  case written =>
    rw [hbuilt]
    exact h.written

end steps

/-- Over its life a generator draws identifiers for the components that projects place, and for no
others. -/
theorem draws_placed (calls : List (Job × Sink κ)) (state : σ × κ) :
    g.Draws calls state (Job.placed (calls.map Prod.fst)) := by
  induction calls generalizing state with
  | nil => exact ⟨rfl, rfl, rfl, List.forall_mem_nil _⟩
  | cons call calls ih =>
    obtain ⟨job, sink⟩ := call
    by_cases hp : job.Passes
    · have hplaced : Job.placed (((job, sink) :: calls).map Prod.fst) =
          job.program.placed ++ Job.placed (calls.map Prod.fst) := by
        simp [Job.placed, hp]
      rw [hplaced]
      exact Draws.cons_of_passes g sink hp (ih _)
    · have hplaced : Job.placed (((job, sink) :: calls).map Prod.fst) =
          Job.placed (calls.map Prod.fst) := by
        simp [Job.placed, hp]
      rw [hplaced]
      exact Draws.cons_of_not_passes g sink hp (ih _)

/-- Counted identifiers never repeat over the life of a generator. Projects are written one after
the other into any sinks, whether or not some fail. As long as the count needs no more than 64 bits,
the components of the forms that are built are those that the projects place, in order, and they
have the decimals of the numbers from the first on as identifiers, without a gap and without a
repetition. -/
theorem counted_uuids (config : Config) (calls : List (Job × Sink κ)) (start : UInt64) (k : κ)
    (h : start.toNat + (Job.placed (calls.map Prod.fst)).length < UInt64.size) :
    let g : Generator UInt64 := ⟨config, .counting⟩
    let names := Job.placed (calls.map Prod.fst)
    let uuids := (g.components calls (start, k)).map Component.uuid
    (g.components calls (start, k)).map Component.name = names ∧
      uuids = (List.range' start.toNat names.length).map toString ∧ uuids.Nodup ∧
      (g.writeAll calls (start, k)).2.1.toNat = start.toNat + names.length ∧
      ∀ made ∈ g.built calls (start, k),
        .ofText config.naming.formPath made.1.written ∈ made.2.entries := by
  intro g names uuids
  have hdraws := g.draws_placed calls (start, k)
  refine ⟨hdraws.map_name_eq, ?_, ?_, ?_, hdraws.written⟩
  · exact hdraws.map_uuid_eq.trans (Supply.take_counting h)
  · exact (congrArg List.Nodup hdraws.map_uuid_eq).mpr (Supply.nodup_take_counting h)
  · rw [hdraws.supply_eq]
    exact Supply.toNat_advance_counting h

/-- Four projects for one archive. The second handles a click of nothing, the third lacks its
payload, and the fourth finds its paths taken by the first. -/
def sharedArchiveCalls : List (Job × Sink Archive) :=
  let program (component : String) (components : List String) : Program :=
    { Program.empty with events := [⟨component, "Click", []⟩], components }
  let noFiles : String → Except FileFault ByteArray := fun _ ↦ .error .missing
  let clock : Extension :=
    { name := "Clock", version := "1", uuid := "com.extension.clock",
      payload := some (.ofFile "lib/Clock.aix") }
  [(⟨program "Button1" ["Button1", "Label1", "Screen1"], [], noFiles⟩, Archive.sink),
    (⟨program "" ["Button2"], [], noFiles⟩, Archive.sink),
    (⟨program "Button3" ["Button3"], [clock], noFiles⟩, Archive.sink),
    (⟨program "Button4" ["Button4"], [], noFiles⟩, Archive.sink)]

/-- Of four calls into one archive two come to draw identifiers, and one of these is written. -/
theorem counted_uuids_sharedArchiveCalls :
    let g : Generator UInt64 := ⟨.builtIn, .counting⟩
    (g.writeAll sharedArchiveCalls (41, .empty)).1.map Except.toBool =
        [true, false, false, false] ∧
      (g.components sharedArchiveCalls (41, .empty)).map Component.name =
        ["Button1", "Label1", "Button4"] ∧
      (g.components sharedArchiveCalls (41, .empty)).map Component.uuid = ["41", "42", "43"] ∧
      (g.writeAll sharedArchiveCalls (41, .empty)).2.1.toNat = 44 := by
  intro g
  have hplaced : Job.placed (sharedArchiveCalls.map Prod.fst) =
      ["Button1", "Label1", "Button4"] := by decide +kernel
  obtain ⟨hnames, huuids, -, hnext, -⟩ :=
    counted_uuids .builtIn sharedArchiveCalls 41 .empty (by rw [hplaced]; decide)
  rw [hplaced] at hnames huuids hnext
  refine ⟨?_, hnames, ?_, ?_⟩
  · decide +kernel
  · rw [huuids]
    decide +kernel
  · rw [hnext]
    decide

end Generator

end Blockwright
