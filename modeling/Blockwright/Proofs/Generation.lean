import Blockwright.Project
import Mathlib.Data.List.Forall2

/-!
# Writing one project after the other

A generator writes projects into sinks of its callers and keeps drawing identifiers from one supply.
A program that cannot be used and a payload that cannot be read end the writing of a project before
an identifier is drawn and before an entry is made. So nothing that happens later can tell that the
project was asked for.
-/

namespace Blockwright

open Script

/-! ### Sinks -/

/-- Where the entries of a project go. A sink takes an entry or refuses it, and goes on from there
either way. -/
abbrev Sink (κ : Type) := Entry → κ → Except Failure Unit × κ

/-- Adds entries one after the other, up to the first that is refused. -/
def Sink.addAll {κ : Type} (sink : Sink κ) : List Entry → κ → Except Failure Unit × κ
  | [], k => (.ok (), k)
  | entry :: entries, k =>
    match sink entry k with
    | (.ok (), k) => sink.addAll entries k
    | (.error failure, k) => (.error failure, k)

/-- An archive is a sink that an entry under a taken path leaves as it is. -/
def Archive.sink : Sink Archive := fun entry a ↦
  match a.add entry with
  | .ok b => (.ok (), b)
  | .error failure => (.error failure, a)

/-- A table of entries is a sink that takes everything. -/
def EntryTable.sink : Sink EntryTable := fun entry table ↦ (.ok (), table.add entry)

/-! ### Generators -/

/-- What makes projects: its tables, and where its identifiers come from. -/
structure Generator (σ : Type) where
  config : Config
  supply : Supply σ

/-- A project that is asked of a generator, with the files that its payloads are read from. -/
structure Job where
  program : Program
  extensions : List Extension
  files : String → Except FileFault ByteArray

namespace Generator

variable {σ κ : Type}

/-- Makes a project. -/
def make (g : Generator σ) (job : Job) (s : σ) : Except Failure Project × σ :=
  Project.make (m := Id) job.files g.config g.supply job.program job.extensions s

/-- Writes a project into a sink. The state is that of the supply and that of all sinks. -/
def write (g : Generator σ) (job : Job) (sink : Sink κ) (state : σ × κ) :
    Except Failure Unit × σ × κ :=
  match g.make job state.1 with
  | (.error failure, s) => (.error failure, s, state.2)
  | (.ok project, s) =>
    let (result, k) := sink.addAll project.entries state.2
    (result, s, k)

/-- Writes projects one after the other, whether or not earlier ones fail. -/
def writeAll (g : Generator σ) :
    List (Job × Sink κ) → σ × κ → List (Except Failure Unit) × σ × κ
  | [], state => ([], state)
  | (job, sink) :: jobs, state =>
    let (result, state) := g.write job sink state
    let (results, state) := g.writeAll jobs state
    (result :: results, state)

end Generator

/-! ### Checking programs -/

namespace Script.Program

variable {p : Program} {event : Event} {failure : Failure}

/-- A handler can be used if it is named and belongs to one of the program's components. -/
def Usable (p : Program) (event : Event) : Prop :=
  event.component ≠ "" ∧ event.event ≠ "" ∧ event.component ∈ p.components

/-- A handler is not reported exactly when it can be used. -/
theorem eventFailure?_eq_none_iff {position : Nat} :
    p.eventFailure? position event = none ↔ p.Usable event := by
  by_cases hc : event.component = ""
  · simp [eventFailure?, Usable, hc]
  · by_cases he : event.event = ""
    · simp [eventFailure?, Usable, he]
    · simp [eventFailure?, Usable, hc, he]

private theorem eventFailure?_of_unnamed (position : Nat)
    (h : event.component = "" ∨ event.event = "") :
    p.eventFailure? position event = some (.unnamedEvent position) := by
  simp [eventFailure?, h]

private theorem eventFailure?_of_unlisted (position : Nat)
    (h : event.component ≠ "" ∧ event.event ≠ "") (hm : event.component ∉ p.components) :
    p.eventFailure? position event =
      some (.unlistedComponent position event.component) := by
  simp [eventFailure?, h.1, h.2, hm]

/-- A program passes its check exactly when all its handlers can be used. -/
theorem check_eq_ok_iff : p.check = .ok () ↔ ∀ event ∈ p.events, p.Usable event := by
  have hnone : p.check = .ok () ↔
      p.events.zipIdx.findSome? (fun entry ↦ p.eventFailure? entry.2 entry.1) = none := by
    rw [check]
    split <;> simp [*]
  rw [hnone, List.findSome?_eq_none_iff]
  simp only [eventFailure?_eq_none_iff]
  constructor
  · intro h event he
    obtain ⟨position, hp⟩ := List.mem_iff_getElem?.mp he
    exact h (event, position) (List.mem_zipIdx_iff_getElem?.mpr hp)
  · intro h entry he
    exact h entry.1 (List.fst_mem_of_mem_zipIdx he)

/-- Otherwise the first handler that cannot be used is reported, with its position. -/
theorem check_eq_error_iff : p.check = .error failure ↔
    ∃ earlier event later, p.events = earlier ++ event :: later ∧
      (∀ other ∈ earlier, p.Usable other) ∧
      p.eventFailure? earlier.length event = some failure := by
  have hsome : p.check = .error failure ↔
      p.events.zipIdx.findSome? (fun entry ↦ p.eventFailure? entry.2 entry.1) = some failure := by
    rw [check]
    split <;> simp [*]
  rw [hsome, List.findSome?_eq_some_iff]
  constructor
  · rintro ⟨before, entry, after, he, hf, hb⟩
    obtain ⟨earlier, rest, hevents, rfl, hrest⟩ := List.zipIdx_eq_append_iff.mp he
    obtain ⟨event, later, rfl, rfl, -⟩ := List.zipIdx_eq_cons_iff.mp hrest.symm
    refine ⟨earlier, event, later, hevents, ?_, by simpa using hf⟩
    intro other ho
    obtain ⟨position, hp⟩ := List.mem_iff_getElem?.mp ho
    exact eventFailure?_eq_none_iff.mp
      (hb (other, position) (List.mem_zipIdx_iff_getElem?.mpr hp))
  · rintro ⟨earlier, event, later, he, hu, hf⟩
    refine ⟨earlier.zipIdx, (event, earlier.length), later.zipIdx (earlier.length + 1), ?_, hf, ?_⟩
    · rw [he, List.zipIdx_append, List.zipIdx_cons, Nat.zero_add]
    · intro entry hm
      exact eventFailure?_eq_none_iff.mpr (hu entry.1 (List.fst_mem_of_mem_zipIdx hm))

end Script.Program

/-! ### Reading payloads -/

section payloads

variable {files : String → Except FileFault ByteArray}

/-- What a payload holds, or why it cannot be read. -/
def Payload.content (files : String → Except FileFault ByteArray) (payload : Payload) :
    Except FileFault ByteArray :=
  match payload.source with
  | .bytes content => .ok content
  | .file path => files path

/-- The payloads that extensions bring along. -/
def Extension.payloads (extensions : List Extension) : List Payload :=
  extensions.filterMap Extension.payload

/-- The entry of a payload, or the report that it cannot be read. -/
def Payload.entry (files : String → Except FileFault ByteArray) (payload : Payload) :
    Except Failure Entry :=
  match payload.content files with
  | .ok content => .ok ⟨payload.path, content⟩
  | .error fault => .error (.payload payload.fileName fault)

private theorem Payload.run_read (payload : Payload) :
    (payload.read (m := Id) files).run = payload.entry files := by
  unfold read entry content
  cases payload.source with
  | bytes content => rfl
  | file path =>
    dsimp only
    cases files path <;> rfl

private theorem Extension.run_readPayloads (extensions : List Extension) :
    (readPayloads (m := Id) files extensions).run =
      (payloads extensions).mapM (Payload.entry files) := by
  change ((payloads extensions).mapM (Payload.read (m := Id) files)).run = _
  induction payloads extensions with
  | nil => rfl
  | cons payload others ih =>
    rw [List.mapM_cons, List.mapM_cons, ExceptT.run_bind, Payload.run_read, ← ih]
    cases payload.entry files with
    | error failure => rfl
    | ok entry =>
      change (others.mapM (Payload.read (m := Id) files) >>=
        fun rest ↦ pure (entry :: rest)).run = _
      rw [ExceptT.run_bind]
      cases (others.mapM (Payload.read (m := Id) files)).run <;> rfl

/-- Entries are read exactly when each payload gives its own. -/
theorem Payload.mapM_entry_eq_ok_iff {payloads : List Payload} {entries : List Entry} :
    payloads.mapM (entry files) = .ok entries ↔
      List.Forall₂ (fun payload e ↦ entry files payload = .ok e) payloads entries := by
  induction payloads generalizing entries with
  | nil => cases entries <;> simp [pure, Except.pure]
  | cons payload payloads ih =>
    rw [List.mapM_cons]
    cases he : entry files payload with
    | error failure => cases entries <;> simp [bind, Except.bind, he]
    | ok e =>
      cases hr : payloads.mapM (entry files) with
      | error failure => cases entries <;> simp [bind, Except.bind, he, ← ih, hr]
      | ok rest => cases entries <;> simp [bind, Except.bind, pure, Except.pure, he, ← ih, hr]

/-- Otherwise the first payload that gives none is reported. -/
theorem Payload.mapM_entry_eq_error_iff {payloads : List Payload} {failure : Failure} :
    payloads.mapM (entry files) = .error failure ↔
      ∃ earlier payload later, payloads = earlier ++ payload :: later ∧
        (∀ other ∈ earlier, ∃ e, entry files other = .ok e) ∧
        entry files payload = .error failure := by
  induction payloads with
  | nil => simp [pure, Except.pure]
  | cons payload payloads ih =>
    rw [List.mapM_cons]
    constructor
    · intro h
      cases he : entry files payload with
      | error other =>
        rw [he] at h
        cases h
        exact ⟨[], payload, payloads, rfl, List.forall_mem_nil _, he⟩
      | ok e =>
        have hrest : payloads.mapM (entry files) = .error failure := by
          rw [he] at h
          cases hr : payloads.mapM (entry files) with
          | error other => rw [hr] at h; exact h
          | ok rest => rw [hr] at h; cases h
        obtain ⟨earlier, first, later, rfl, hread, hf⟩ := ih.mp hrest
        exact ⟨payload :: earlier, first, later, rfl, List.forall_mem_cons.mpr ⟨⟨e, he⟩, hread⟩, hf⟩
    · rintro ⟨earlier, first, later, hs, hread, hf⟩
      cases earlier with
      | nil =>
        obtain ⟨rfl, rfl⟩ := List.cons.inj hs
        rw [hf]
        rfl
      | cons other earlier =>
        obtain ⟨rfl, rfl⟩ := List.cons.inj hs
        obtain ⟨⟨e, he⟩, hread⟩ := List.forall_mem_cons.mp hread
        rw [he, ih.mpr ⟨earlier, first, later, rfl, hread, hf⟩]
        rfl

/-- Every payload that is read has an entry. -/
theorem Payload.exists_entry_of_mem {payloads : List Payload} {entries : List Entry}
    (h : List.Forall₂ (fun payload e ↦ entry files payload = .ok e) payloads entries)
    {payload : Payload} (hm : payload ∈ payloads) :
    ∃ e ∈ entries, payload.entry files = .ok e := by
  induction h with
  | nil => cases hm
  | cons h _ ih =>
    rcases List.mem_cons.mp hm with rfl | hm
    · exact ⟨_, List.mem_cons_self, h⟩
    · obtain ⟨e, he, hentry⟩ := ih hm
      exact ⟨e, List.mem_cons_of_mem _ he, hentry⟩

/-- A payload that can be read gives an entry with its content under its own path. -/
theorem Payload.entry_eq_ok_iff {payload : Payload} {e : Entry} :
    payload.entry files = .ok e ↔
      e.path = payload.path ∧ payload.content files = .ok e.content := by
  obtain ⟨path, content⟩ := e
  rw [entry]
  split <;> simp [*, eq_comm]

/-- One that cannot is reported with its name and the reason. -/
theorem Payload.entry_eq_error_iff {payload : Payload} {failure : Failure} :
    payload.entry files = .error failure ↔
      ∃ fault, payload.content files = .error fault ∧
        failure = .payload payload.fileName fault := by
  rw [entry]
  split <;> simp [*, eq_comm]

end payloads

/-! ### Making projects -/

namespace Project

variable {σ : Type} (files : String → Except FileFault ByteArray) (config : Config)
  (supply : Supply σ) {p : Program} {extensions : List Extension} {failure : Failure} (s : σ)

/-- A program that fails its check ends the making of its project. -/
theorem make_of_check (h : p.check = .error failure) :
    make (m := Id) files config supply p extensions s = (.error failure, s) := by
  rw [make, h]
  rfl

/-- So does a payload that cannot be read. -/
theorem make_of_payload (hc : p.check = .ok ())
    (h : (Extension.payloads extensions).mapM (Payload.entry files) = .error failure) :
    make (m := Id) files config supply p extensions s = (.error failure, s) := by
  rw [← Extension.run_readPayloads] at h
  rw [make, hc]
  dsimp only
  rw [h]
  rfl

/-- Otherwise the project is built. -/
theorem make_of_read {payloads : List Entry} (hc : p.check = .ok ())
    (h : (Extension.payloads extensions).mapM (Payload.entry files) = .ok payloads) :
    make (m := Id) files config supply p extensions s =
      ((.ok (build (.ofExtensions config extensions) supply p payloads s).1),
        (build (.ofExtensions config extensions) supply p payloads s).2) := by
  rw [← Extension.run_readPayloads] at h
  rw [make, hc]
  dsimp only
  rw [h]
  rfl

end Project

/-! ### Refusals -/

/-- Why a project is refused before anything is done for it. -/
inductive Job.Refused (job : Job) : Failure → Prop where
  /-- The first handler that cannot be used lacks a name. -/
  | unnamed {earlier later : List Event} {event : Event}
    (events_eq : job.program.events = earlier ++ event :: later)
    (usable : ∀ other ∈ earlier, job.program.Usable other)
    (unnamed : event.component = "" ∨ event.event = "") :
    Refused job (.unnamedEvent earlier.length)
  /-- The first handler that cannot be used belongs to no component of the program. -/
  | unlisted {earlier later : List Event} {event : Event}
    (events_eq : job.program.events = earlier ++ event :: later)
    (usable : ∀ other ∈ earlier, job.program.Usable other)
    (named : event.component ≠ "" ∧ event.event ≠ "")
    (unlisted : event.component ∉ job.program.components) :
    Refused job (.unlistedComponent earlier.length event.component)
  /-- All handlers can be used, and this is the first payload that cannot be read. -/
  | payload {earlier later : List Payload} {payload : Payload} {fault : FileFault}
    (usable : ∀ event ∈ job.program.events, job.program.Usable event)
    (payloads_eq : Extension.payloads job.extensions = earlier ++ payload :: later)
    (readable : ∀ other ∈ earlier, ∃ content, other.content job.files = .ok content)
    (content_eq : payload.content job.files = .error fault) :
    Refused job (.payload payload.fileName fault)

namespace Job

variable {job : Job} {failure : Failure}

/-- A project is refused for what its check or the reading of its payloads reports. -/
theorem refused_iff : job.Refused failure ↔
    job.program.check = .error failure ∨ job.program.check = .ok () ∧
      (Extension.payloads job.extensions).mapM (Payload.entry job.files) = .error failure := by
  constructor
  · intro h
    cases h with
    | unnamed he hu hn =>
      exact .inl (Program.check_eq_error_iff.mpr
        ⟨_, _, _, he, hu, Program.eventFailure?_of_unnamed _ hn⟩)
    | unlisted he hu hn hm =>
      exact .inl (Program.check_eq_error_iff.mpr
        ⟨_, _, _, he, hu, Program.eventFailure?_of_unlisted _ hn hm⟩)
    | payload hu hp hr hc =>
      refine .inr ⟨Program.check_eq_ok_iff.mpr hu, Payload.mapM_entry_eq_error_iff.mpr
        ⟨_, _, _, hp, ?_, Payload.entry_eq_error_iff.mpr ⟨_, hc, rfl⟩⟩⟩
      intro other ho
      obtain ⟨content, h⟩ := hr other ho
      exact ⟨⟨other.path, content⟩, Payload.entry_eq_ok_iff.mpr ⟨rfl, h⟩⟩
  · rintro (h | ⟨hc, h⟩)
    · obtain ⟨earlier, event, later, he, hu, hf⟩ := Program.check_eq_error_iff.mp h
      by_cases hn : event.component = "" ∨ event.event = ""
      · rw [Program.eventFailure?_of_unnamed _ hn] at hf
        cases hf
        exact .unnamed he hu hn
      · rw [not_or] at hn
        by_cases hm : event.component ∈ job.program.components
        · rw [Program.eventFailure?_eq_none_iff.mpr ⟨hn.1, hn.2, hm⟩] at hf
          cases hf
        · rw [Program.eventFailure?_of_unlisted _ hn hm] at hf
          cases hf
          exact .unlisted he hu hn hm
    · obtain ⟨earlier, payload, later, hp, hr, hf⟩ := Payload.mapM_entry_eq_error_iff.mp h
      obtain ⟨fault, hfault, rfl⟩ := Payload.entry_eq_error_iff.mp hf
      refine .payload (Program.check_eq_ok_iff.mp hc) hp ?_ hfault
      intro other ho
      obtain ⟨e, he⟩ := hr other ho
      exact ⟨e.content, (Payload.entry_eq_ok_iff.mp he).2⟩

/-- A project is refused exactly when some handler cannot be used or some payload cannot be read. -/
theorem exists_refused_iff : (∃ failure, job.Refused failure) ↔
    (∃ event ∈ job.program.events, ¬ job.program.Usable event) ∨
      ∃ payload ∈ Extension.payloads job.extensions, ∃ fault,
        payload.content job.files = .error fault := by
  constructor
  · rintro ⟨failure, h⟩
    cases h with
    | unnamed he hu hn =>
      exact .inl ⟨_, by rw [he]; simp, fun h ↦ hn.elim h.1 h.2.1⟩
    | unlisted he hu hn hm => exact .inl ⟨_, by rw [he]; simp, fun h ↦ hm h.2.2⟩
    | payload hu hp hr hc => exact .inr ⟨_, by rw [hp]; simp, _, hc⟩
  · intro h
    cases hc : job.program.check with
    | error failure => exact ⟨failure, refused_iff.mpr (.inl hc)⟩
    | ok _ =>
      cases hr : (Extension.payloads job.extensions).mapM (Payload.entry job.files) with
      | error failure => exact ⟨failure, refused_iff.mpr (.inr ⟨hc, hr⟩)⟩
      | ok entries =>
        rcases h with ⟨event, he, hu⟩ | ⟨payload, hp, fault, hf⟩
        · exact absurd (Program.check_eq_ok_iff.mp hc event he) hu
        · obtain ⟨e, -, he⟩ :=
            Payload.exists_entry_of_mem (Payload.mapM_entry_eq_ok_iff.mp hr) hp
          rw [(Payload.entry_eq_ok_iff.mp he).2] at hf
          cases hf

/-- The input is at fault exactly when a handler is. -/
theorem Refused.isInput_iff (h : job.Refused failure) :
    failure.isInput ↔ ∃ event ∈ job.program.events, ¬ job.program.Usable event := by
  cases h with
  | unnamed he hu hn =>
    exact iff_of_true rfl ⟨_, by rw [he]; simp, fun h ↦ hn.elim h.1 h.2.1⟩
  | unlisted he hu hn hm => exact iff_of_true rfl ⟨_, by rw [he]; simp, fun h ↦ hm h.2.2⟩
  | payload hu hp hr hc =>
    refine iff_of_false (by simp [Failure.isInput, Failure.inputProblem?]) ?_
    rintro ⟨event, he, h⟩
    exact h (hu event he)

end Job

namespace Generator

variable {σ κ : Type} (g : Generator σ) {job : Job} {failure : Failure}

/-- No identifier is drawn for a project that is refused. -/
theorem make_of_refused (h : job.Refused failure) (s : σ) :
    g.make job s = (.error failure, s) := by
  rcases Job.refused_iff.mp h with hc | ⟨hc, hp⟩
  · exact Project.make_of_check _ _ _ _ hc
  · exact Project.make_of_payload _ _ _ _ hc hp

/-- A project that is refused leaves the supply and every sink as they were. -/
theorem write_of_refused (h : job.Refused failure) (sink : Sink κ) (state : σ × κ) :
    g.write job sink state = (.error failure, state) := by
  rw [write, g.make_of_refused h]

/-- Rejected input leaves nothing behind. A project is refused exactly when a handler of its program
lacks a name or belongs to none of the program's components, or else a payload cannot be read; the
first such handler, or else the first such payload, is the one reported. Then no sink has taken
an entry and no identifier has been drawn, so whatever is written later comes out as if the project
had not been asked for. -/
theorem write_refused_traceless (job : Job) (sink : Sink κ) (state : σ × κ) :
    ((∃ failure, job.Refused failure) ↔
      (∃ event ∈ job.program.events, ¬ job.program.Usable event) ∨
        ∃ payload ∈ Extension.payloads job.extensions, ∃ fault,
          payload.content job.files = .error fault) ∧
    ∀ failure, job.Refused failure →
      (failure.isInput ↔ ∃ event ∈ job.program.events, ¬ job.program.Usable event) ∧
      g.write job sink state = (.error failure, state) ∧
      ∀ later, g.writeAll ((job, sink) :: later) state =
        (.error failure :: (g.writeAll later state).1, (g.writeAll later state).2) := by
  refine ⟨Job.exists_refused_iff, ?_⟩
  intro failure h
  refine ⟨h.isInput_iff, g.write_of_refused h sink state, ?_⟩
  intro later
  rw [writeAll, g.write_of_refused h sink state]

end Generator

end Blockwright
