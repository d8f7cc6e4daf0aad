import Blockwright.Command.Disk
import Mathlib.Logic.Basic

/-!
# The files that a run touches

A run may read any file, but it writes at most two: the document of its program, if one is asked
for, and the archive. A file system is a state with files in it in which one write either puts one
file or changes nothing. In every file system a run that gives a path has put the archive there, for
a program without problems, and has changed no file but this one and the document. Every other run
changes at most the document, and that only after the program was loaded. The disk in memory is such
a file system, seen by the contents of its files or by their bytes.
-/

namespace Blockwright.Command

open Blockwright.Script

/-! ### Results and states -/

section outcome

variable {σ ε α β : Type}

/-- The result of a computation that may fail, and the state it leaves behind. -/
def outcome (x : ExceptT ε (StateM σ) α) (s : σ) : Except ε α × σ := x.run.run s

variable {x : ExceptT ε (StateM σ) α} {f : α → ExceptT ε (StateM σ) β} {s t : σ} {e : ε} {a : α}

private theorem outcome_bind_ok (h : outcome x s = (.ok a, t)) :
    outcome (x >>= f) s = outcome (f a) t := by
  have hx : x s = (.ok a, t) := h
  show (x >>= f : ExceptT ε (StateM σ) β) s = f a t
  simp only [bind, ExceptT.bind, ExceptT.mk, StateT.bind, hx, ExceptT.bindCont]

private theorem outcome_bind_error (h : outcome x s = (.error e, t)) :
    outcome (x >>= f) s = (.error e, t) := by
  have hx : x s = (.error e, t) := h
  show (x >>= f : ExceptT ε (StateM σ) β) s = (.error e, t)
  simp only [bind, ExceptT.bind, ExceptT.mk, StateT.bind, hx, ExceptT.bindCont]
  rfl

/-- A computation that leaves every state as it is. -/
def Keeps (y : StateM σ α) : Prop := ∀ s, (y.run s).2 = s

private theorem Keeps.outcome_eq (h : Keeps x.run) (s : σ) : outcome x s = ((outcome x s).1, s) :=
  Prod.ext rfl (h s)

private theorem keeps_pure (a : α) : Keeps (pure a : StateM σ α) := fun _ ↦ rfl

private theorem Keeps.bind {y : StateM σ α} {g : α → StateM σ β} (hy : Keeps y)
    (hg : ∀ a, Keeps (g a)) :
    Keeps (y >>= g) := by
  intro s
  show ((g (y s).1) (y s).2).2 = s
  rw [show (y s).2 = s from hy s]
  exact hg _ s

private theorem Keeps.lift {y : StateM σ α} (hy : Keeps y) :
    Keeps (liftM y : ExceptT ε (StateM σ) α).run := hy

private theorem keeps_ofExcept (result : Except ε α) :
    Keeps (liftM result : ExceptT ε (StateM σ) α).run := fun _ ↦ rfl

private theorem keeps_ok (a : α) : Keeps (pure a : ExceptT ε (StateM σ) α).run := fun _ ↦ rfl

private theorem keeps_throw (e : ε) : Keeps (throw e : ExceptT ε (StateM σ) α).run := fun _ ↦ rfl

private theorem Keeps.outcome_bind (hx : Keeps x.run) (f : α → ExceptT ε (StateM σ) β) (s : σ) :
    (∃ e, outcome x s = (.error e, s) ∧ outcome (x >>= f) s = (.error e, s)) ∨
      ∃ a, outcome x s = (.ok a, s) ∧ outcome (x >>= f) s = outcome (f a) s := by
  have hs := hx.outcome_eq s
  cases hr : (outcome x s).1 with
  | error e =>
    rw [hr] at hs
    exact .inl ⟨e, hs, outcome_bind_error hs⟩
  | ok a =>
    rw [hr] at hs
    exact .inr ⟨a, hs, outcome_bind_ok hs⟩

private theorem Keeps.exceptBind (hx : Keeps x.run) (hf : ∀ a, Keeps (f a).run) :
    Keeps (x >>= f).run := by
  intro s
  show (outcome (x >>= f) s).2 = s
  rcases hx.outcome_bind f s with ⟨e, -, he⟩ | ⟨a, -, ha⟩
  · rw [he]
  · rw [ha]
    exact hf a s

/-- From a state, a computation either fails and keeps it, or has a result and a state behind it
for which a condition holds. -/
def AllOrNothing (x : ExceptT ε (StateM σ) α) (s : σ) (P : α → σ → Prop) : Prop :=
  (∃ e, outcome x s = (.error e, s)) ∨ ∃ a s', outcome x s = (.ok a, s') ∧ P a s'

private theorem Keeps.allOrNothing_bind {P : β → σ → Prop} (hx : Keeps x.run)
    (hf : ∀ a, AllOrNothing (f a) s P) : AllOrNothing (x >>= f) s P := by
  rcases hx.outcome_bind f s with ⟨e, -, he⟩ | ⟨a, -, ha⟩
  · exact .inl ⟨e, he⟩
  · unfold AllOrNothing
    rw [ha]
    exact hf a

private theorem AllOrNothing.bind_pure {P : α → σ → Prop} {Q : β → σ → Prop}
    (hx : AllOrNothing x s P) {g : α → β} (hg : ∀ a s', P a s' → Q (g a) s') :
    AllOrNothing (x >>= fun a ↦ pure (g a)) s Q := by
  rcases hx with ⟨e, he⟩ | ⟨a, s', ha, hP⟩
  · exact .inl ⟨e, outcome_bind_error he⟩
  · exact .inr ⟨g a, s', outcome_bind_ok ha, hg a s' hP⟩

private theorem Keeps.mapM {make : β → ExceptT ε (StateM σ) α} (h : ∀ b, Keeps (make b).run)
    (items : List β) : Keeps (items.mapM make).run := by
  induction items with
  | nil => exact keeps_ok []
  | cons item items ih =>
    rw [List.mapM_cons]
    exact (h item).exceptBind (fun a ↦ ih.exceptBind (fun as ↦ keeps_ok (a :: as)))

private theorem Keeps.forM {act : β → ExceptT ε (StateM σ) PUnit} (h : ∀ b, Keeps (act b).run)
    (items : List β) : Keeps (items.forM act).run := by
  induction items with
  | nil => exact keeps_ok PUnit.unit
  | cons item items ih => exact (h item).exceptBind (fun _ ↦ ih)

end outcome

/-! ### File systems -/

/-- The files that a state holds. What is in a file may be told in any way, as the content that was
written or as its bytes. -/
structure Files (σ φ β : Type) where
  /-- What a file holds, if it is there. -/
  content : σ → φ → Option β
  /-- The file to which a path leads. -/
  target : σ → String → Option φ

namespace Files

variable {σ φ β : Type} (files : Files σ φ β)

/-- A file has changed between two states. -/
def Changed (s s' : σ) (file : φ) : Prop := files.content s' file ≠ files.content s file

/-- A file in which the document of the program is asked for. -/
def IsDocument (o : Options) (s : σ) (file : φ) : Prop :=
  ∃ path, o.emit = some path ∧ files.target s path = some file

/-- Of two states the later one differs by what the file holds to which a path leads. -/
structure Wrote (path : String) (held : β) (s s' : σ) : Prop where
  put : ∃ file, files.target s path = some file ∧ files.content s' file = some held ∧
    ∀ other, other ≠ file → files.content s' other = files.content s other
  target_eq : ∀ other, files.target s' other = files.target s other

variable {files} {path : String} {held : β} {s s' s'' : σ} {file : φ}

/-- What has changed in two steps has changed in one of them. -/
theorem Changed.or (h : files.Changed s s'' file) :
    files.Changed s s' file ∨ files.Changed s' s'' file := by
  by_cases hs : files.content s' file = files.content s file
  · exact .inr (fun hs' ↦ h (hs'.trans hs))
  · exact .inl hs

/-- A write changes no file but its own. -/
theorem Wrote.target_of_changed (h : files.Wrote path held s s')
    (hfile : files.Changed s s' file) : files.target s path = some file := by
  obtain ⟨written, htarget, -, hother⟩ := h.put
  obtain rfl : file = written := Classical.byContradiction (fun hne ↦ hfile (hother file hne))
  exact htarget

end Files

/-- Files that a run reads and writes through a host. A write that fails changes nothing, and one
that succeeds puts one file. -/
structure FileSystem (σ φ β : Type) extends Files σ φ β where
  host : Host (StateM σ)
  /-- What a file holds into which a content was written. -/
  stored : Content → β
  keeps_readFile : ∀ path, Keeps (host.readFile path)
  keeps_report : ∀ line, Keeps (host.report line)
  write_error : ∀ {path given s fault s'},
    (host.writeFile path given).run s = (.error fault, s') → s' = s
  write_ok : ∀ {path given s s'},
    (host.writeFile path given).run s = (.ok (), s') → toFiles.Wrote path (stored given) s s'

namespace FileSystem

variable {σ φ β : Type} (fs : FileSystem σ φ β)

/-- The document of the program has been written, if it was asked for. -/
inductive Emitted (o : Options) (p : Program) (s : σ) : σ → Prop where
  | unasked (h : o.emit = none) : Emitted o p s s
  | written {path : String} {s' : σ} (h : o.emit = some path)
    (hw : fs.Wrote path (fs.stored (.bytes p.written.toUTF8)) s s') : Emitted o p s s'

variable {fs} {o : Options} {p : Program} {s s' : σ}

/-- The document leads no path elsewhere. -/
theorem Emitted.target_eq (h : fs.Emitted o p s s') (other : String) :
    fs.target s' other = fs.target s other := by
  cases h with
  | unasked _ => rfl
  | written _ hw => exact hw.target_eq other

/-- Writing the document changes no other file. -/
theorem Emitted.isDocument_of_changed (h : fs.Emitted o p s s') {file : φ}
    (hfile : fs.Changed s s' file) : fs.IsDocument o s file := by
  cases h with
  | unasked _ => exact absurd rfl hfile
  | written hpath hw => exact ⟨_, hpath, hw.target_of_changed hfile⟩

end FileSystem

/-! ### A disk in memory -/

/-- A result is what is left of it exactly if it succeeds. -/
theorem toOption_eq_some_iff {ε α : Type} {x : Except ε α} {a : α} :
    x.toOption = some a ↔ x = .ok a := by
  cases x <;> simp [Except.toOption]

private theorem toOption_bind_congr {ε α β : Type} {x y : Except ε α} {f g : α → Except ε β}
    (hxy : x.toOption = y.toOption) (hfg : ∀ a, (f a).toOption = (g a).toOption) :
    (x >>= f).toOption = (y >>= g).toOption := by
  cases x with
  | error e =>
    cases y with
    | error e' => rfl
    | ok b => exact nomatch hxy
  | ok a =>
    cases y with
    | error e' => exact nomatch hxy
    | ok b =>
      obtain rfl : a = b := Option.some.inj hxy
      exact hfg a

namespace Disk

variable (d : Disk) (place : Place) (given : Content)

/-- After a file is put at a place, that file is there and every other one is as before. -/
theorem file?_put (other : Place) :
    (d.put place given).file? other = if other = place then some given else d.file? other := by
  unfold file? put
  split
  · next h => simp [h]
  · next h =>
    have hplace : (place == other) = false := beq_false_of_ne (Ne.symm h)
    rw [List.find?_cons_of_neg (by simp [hplace]), List.find?_filter]
    congr 2
    funext file
    by_cases hfile : file.1 = other <;> simp [hfile, h]

private theorem toOption_requireFolder_put (folder : Place) :
    ((d.put place given).requireFolder folder).toOption = (d.requireFolder folder).toOption := by
  have hfolder : (d.put place given).isFolder folder = d.isFolder folder := rfl
  unfold requireFolder
  rw [hfolder]
  split <;> rfl

private theorem toOption_step_put (folder : Place) (part : String) :
    ((d.put place given).step folder part).toOption = (d.step folder part).toOption :=
  toOption_bind_congr (d.toOption_requireFolder_put place given folder) (fun _ ↦ rfl)

private theorem toOption_walk_put (parts : List String) (folder : Place) :
    ((d.put place given).walk folder parts).toOption = (d.walk folder parts).toOption := by
  induction parts generalizing folder with
  | nil => rfl
  | cons part parts ih => exact toOption_bind_congr (d.toOption_step_put place given folder part) ih

/-- A file at a place leads no path elsewhere. -/
theorem toOption_target_put (path : String) :
    ((d.put place given).target path).toOption = (d.target path).toOption := by
  unfold target
  refine toOption_bind_congr rfl (fun _ ↦ ?_)
  split
  · rfl
  · next name before _ =>
    refine toOption_bind_congr (d.toOption_walk_put place given _ _) (fun folder ↦ ?_)
    refine toOption_bind_congr (d.toOption_requireFolder_put place given folder) (fun _ ↦ ?_)
    split
    · rfl
    · exact toOption_bind_congr (d.toOption_step_put place given folder name) (fun _ ↦ rfl)

/-- Writing puts a file at the place that its path names. -/
theorem writeFile_ok {d : Disk} {path : String} {place : Place} (h : d.target path = .ok place)
    (given : Content) : (diskHost.writeFile path given).run d = (.ok (), d.put place given) := by
  have hw : d.write path given = .ok (d.put place given) := by
    unfold write
    rw [h]
    rfl
  simp only [diskHost, StateT.run_bind, StateT.run_get, pure_bind, hw]
  rfl

/-- Where a path names no place, writing changes nothing. -/
theorem writeFile_error {d : Disk} {path : String} {fault : FileFault}
    (h : d.target path = .error fault) (given : Content) :
    (diskHost.writeFile path given).run d = (.error fault, d) := by
  have hw : d.write path given = .error fault := by
    unfold write
    rw [h]
    rfl
  simp only [diskHost, StateT.run_bind, StateT.run_get, pure_bind, hw]
  rfl

section placed

variable {β : Type} (stored : Content → β)

/-- The files of a disk, each at its place, with what is stored of their contents. -/
def placed : Files Disk Place β where
  content d place := (d.file? place).map stored
  target d path := (d.target path).toOption

private theorem wrote_put {d : Disk} {path : String} {place : Place} (h : d.target path = .ok place)
    (given : Content) : (placed stored).Wrote path (stored given) d (d.put place given) where
  put := by
    refine ⟨place, congrArg Except.toOption h, ?_, fun other hne ↦ ?_⟩
    · exact congrArg (Option.map stored) ((d.file?_put place given place).trans (if_pos rfl))
    · exact congrArg (Option.map stored) ((d.file?_put place given other).trans (if_neg hne))
  target_eq := d.toOption_target_put place given

end placed

end Disk

/-- A disk in memory is a file system, whatever is stored of the contents of its files. -/
def diskFiles {β : Type} (stored : Content → β) : FileSystem Disk Place β where
  toFiles := Disk.placed stored
  host := diskHost
  stored
  keeps_readFile _ _ := rfl
  keeps_report _ _ := rfl
  write_error {path given d fault d'} h := by
    cases htarget : d.target path with
    | ok place => exact nomatch (Disk.writeFile_ok htarget given).symm.trans h
    | error fault =>
      exact (Prod.mk.inj ((Disk.writeFile_error htarget given).symm.trans h)).2.symm
  write_ok {path given d d'} h := by
    cases htarget : d.target path with
    | error fault => exact nomatch (Disk.writeFile_error htarget given).symm.trans h
    | ok place =>
      obtain rfl := (Prod.mk.inj ((Disk.writeFile_ok htarget given).symm.trans h)).2
      exact Disk.wrote_put stored htarget given

/-! ### Runs -/

namespace FileSystem

variable {σ φ β : Type} (fs : FileSystem σ φ β)

private theorem keeps_readText (path : String) : Keeps (fs.host.readText path).run := by
  unfold Host.readText
  apply Keeps.exceptBind (fs.keeps_readFile path).lift
  intro result
  cases result with
  | error fault => exact keeps_throw _
  | ok content =>
    dsimp only
    split
    · exact keeps_ok _
    · exact keeps_throw _

private theorem keeps_loadProgram (o : Options) : Keeps (loadProgram fs.host o).run := by
  unfold loadProgram
  apply (fs.keeps_readText o.input).exceptBind
  intro text
  split
  · exact keeps_ofExcept _
  · exact keeps_ok _

private theorem keeps_loadConfig (o : Options) : Keeps (loadConfig fs.host o).run := by
  unfold loadConfig
  split
  · next path _ =>
    apply (fs.keeps_readText path).exceptBind
    exact fun text ↦ keeps_ofExcept _
  · exact keeps_ok _

private theorem keeps_make {τ : Type} (config : Config) (supply : Supply τ) (p : Program)
    (extensions : List Extension) (start : τ) :
    Keeps (Project.make fs.host.readFile config supply p extensions start) := by
  have hpayload (payload : Payload) : Keeps (payload.read fs.host.readFile).run := by
    unfold Payload.read
    split
    · exact keeps_ok _
    · next path _ =>
      apply Keeps.exceptBind (fs.keeps_readFile path).lift
      intro result
      cases result with
      | ok content => exact keeps_ok _
      | error fault => exact keeps_throw _
  unfold Project.make
  split
  · exact keeps_pure _
  · apply (Keeps.mapM hpayload _).bind
    intro result
    cases result with
    | error failure => exact keeps_pure _
    | ok payloads => exact keeps_pure _

private theorem allOrNothing_write (path : String) (given : Content) (s : σ) :
    AllOrNothing (fs.host.write path given) s
      (fun _ s' ↦ fs.Wrote path (fs.stored given) s s') := by
  have hlift : outcome (liftM (fs.host.writeFile path given) : ExceptT RunFailure (StateM σ) _) s =
    (.ok ((fs.host.writeFile path given).run s).1, ((fs.host.writeFile path given).run s).2) := rfl
  unfold Host.write
  cases hw : (fs.host.writeFile path given).run s with
  | mk result s' =>
    rw [hw] at hlift
    cases result with
    | error fault =>
      obtain rfl := fs.write_error hw
      exact .inl ⟨.writing path fault, outcome_bind_ok hlift⟩
    | ok done => exact .inr ⟨(), s', outcome_bind_ok hlift, fs.write_ok hw⟩

private theorem allOrNothing_emitProgram (o : Options) (p : Program) (s : σ) :
    AllOrNothing (emitProgram fs.host o p) s (fun _ s' ↦ fs.Emitted o p s s') := by
  unfold emitProgram
  cases h : o.emit with
  | none => exact .inr ⟨(), s, rfl, .unasked h⟩
  | some path =>
    rcases fs.allOrNothing_write path (.bytes p.written.toUTF8) s with ⟨e, he⟩ | ⟨_, s', hs, hw⟩
    · exact .inl ⟨e, he⟩
    · exact .inr ⟨(), s', hs, .written h hw⟩

/-- The archive is written where it should go, or nothing changes: all that comes before the write
keeps the state. -/
theorem allOrNothing_writeArchive {τ : Type} (supply : Supply τ) (start : τ) (o : Options)
    (p : Program) (s : σ) :
    AllOrNothing (writeArchive fs.host supply start o p) s (fun path s' ↦ path = o.outputPath ∧
      ∃ archive, fs.Wrote o.outputPath (fs.stored (.archive archive)) s s') := by
  unfold writeArchive
  refine (fs.keeps_loadConfig o).allOrNothing_bind (fun config ↦ ?_)
  refine (keeps_ofExcept (extensionsOf o.extensions)).allOrNothing_bind (fun extensions ↦ ?_)
  refine (fs.keeps_make config supply p extensions start).lift.allOrNothing_bind (fun made ↦ ?_)
  refine (keeps_ofExcept _).allOrNothing_bind (fun archive ↦ ?_)
  exact (fs.allOrNothing_write o.outputPath (.archive archive) s).bind_pure
    (fun _ _ hw ↦ ⟨rfl, archive, hw⟩)

/-- How a run can end, and the files it leaves behind. -/
inductive Ends (o : Options) (s : σ) : Except RunFailure (Option String) → σ → Prop where
  /-- The program could not be read or loaded. -/
  | unloaded {e : RunFailure} (unread : outcome (loadProgram fs.host o) s = (.error e, s)) :
    Ends o s (.error e) s
  /-- The document of the program could not be written. -/
  | unemitted {p : Program} {e : RunFailure}
    (loaded : outcome (loadProgram fs.host o) s = (.ok p, s)) : Ends o s (.error e) s
  /-- The program has problems, or no archive could be made or written. -/
  | stopped {p : Program} {s' : σ} {e : RunFailure}
    (loaded : outcome (loadProgram fs.host o) s = (.ok p, s)) (emitted : fs.Emitted o p s s') :
    Ends o s (.error e) s'
  /-- The program was only checked. -/
  | checked {p : Program} {s' : σ} (loaded : outcome (loadProgram fs.host o) s = (.ok p, s))
    (emitted : fs.Emitted o p s s') (sound : p.diagnostics = []) (only : o.checkOnly = true) :
    Ends o s (.ok none) s'
  /-- An archive was written. -/
  | archived {p : Program} {s' s'' : σ} {archive : Archive}
    (loaded : outcome (loadProgram fs.host o) s = (.ok p, s)) (emitted : fs.Emitted o p s s')
    (sound : p.diagnostics = []) (whole : o.checkOnly = false)
    (wrote : fs.Wrote o.outputPath (fs.stored (.archive archive)) s' s'') :
    Ends o s (.ok (some o.outputPath)) s''

/-- Every run ends in one of these ways. -/
theorem ends_run {τ : Type} (supply : Supply τ) (start : τ) (o : Options) (s : σ) :
    fs.Ends o s (outcome (run fs.host supply start o) s).1
      (outcome (run fs.host supply start o) s).2 := by
  unfold run
  rcases (fs.keeps_loadProgram o).outcome_bind _ s with ⟨e, hunread, he⟩ | ⟨p, hloaded, hrun⟩
  · rw [he]
    exact .unloaded hunread
  rw [hrun]
  rcases fs.allOrNothing_emitProgram o p s with ⟨e, he⟩ | ⟨_, s', hs, hemitted⟩
  · rw [outcome_bind_error he]
    exact .unemitted hloaded
  rw [outcome_bind_ok hs]
  -- Between the document and the archive problems are reported, which touches no file.
  have hreports : Keeps (p.diagnostics.forM fun d ↦
      (liftM (fs.host.report (diagnosticLine d)) : ExceptT RunFailure (StateM σ) PUnit)).run :=
    Keeps.forM (fun d ↦ (fs.keeps_report (diagnosticLine d)).lift) _
  rcases hreports.outcome_bind _ s' with ⟨e, -, he⟩ | ⟨_, -, hreported⟩
  · rw [he]
    exact .stopped hloaded hemitted
  rw [hreported]
  split
  · exact .stopped hloaded hemitted
  next hsound =>
  have hsound : p.diagnostics = [] := by simpa [Program.isFaulty] using hsound
  split
  · next honly => exact .checked hloaded hemitted hsound honly
  next hwhole =>
  rcases fs.allOrNothing_writeArchive supply start o p s' with
    ⟨e, he⟩ | ⟨_, s'', hs'', rfl, archive, hwrote⟩
  · rw [outcome_bind_error he]
    exact .stopped hloaded hemitted
  · rw [outcome_bind_ok hs'']
    exact .archived hloaded hemitted hsound (Bool.eq_false_iff.mpr hwhole) hwrote

/-- A run that gives a path has put the archive there, for a program without problems that was not
only to be checked, and has changed no other file but the document. Every other run changes at most
the document, and that only if the program was loaded. -/
theorem run_touches {τ : Type} (supply : Supply τ) (start : τ) (o : Options) {s s' : σ}
    {result : Except RunFailure (Option String)}
    (h : outcome (run fs.host supply start o) s = (result, s')) :
    (∀ path, result = .ok (some path) →
      path = o.outputPath ∧ o.checkOnly = false ∧
      (∃ p, outcome (loadProgram fs.host o) s = (.ok p, s) ∧ p.diagnostics = []) ∧
      (∃ file archive, fs.target s path = some file ∧
        fs.content s' file = some (fs.stored (.archive archive))) ∧
      ∀ file, fs.Changed s s' file → fs.target s path = some file ∨ fs.IsDocument o s file) ∧
    ((∀ path, result ≠ .ok (some path)) → ∀ file, fs.Changed s s' file →
      fs.IsDocument o s file ∧ ∃ p, outcome (loadProgram fs.host o) s = (.ok p, s)) := by
  have hends := fs.ends_run supply start o s
  rw [h] at hends
  constructor
  · rintro path rfl
    cases hends with
    | archived hloaded hemitted hsound hwhole hwrote =>
      obtain ⟨file, htarget, harchive, -⟩ := hwrote.put
      rw [hemitted.target_eq] at htarget
      refine ⟨rfl, hwhole, ⟨_, hloaded, hsound⟩, ⟨file, _, htarget, harchive⟩, ?_⟩
      intro other hother
      rcases hother.or with hdocument | harchived
      · exact .inr (hemitted.isDocument_of_changed hdocument)
      · have hother := hwrote.target_of_changed harchived
        rw [hemitted.target_eq] at hother
        exact .inl hother
  · intro hresult file hfile
    cases hends with
    | unloaded _ => exact absurd rfl hfile
    | unemitted _ => exact absurd rfl hfile
    | stopped hloaded hemitted => exact ⟨hemitted.isDocument_of_changed hfile, _, hloaded⟩
    | checked hloaded hemitted => exact ⟨hemitted.isDocument_of_changed hfile, _, hloaded⟩
    | archived => exact absurd rfl (hresult _)

/-- A disk whose home folder holds a script and a note. -/
def notedDisk : Disk :=
  .ofHome ["home"] [] [
    (["clicks.txt"], .bytes "when Button1.Click\n  set Label1.Text to \"done\"\n".toUTF8),
    (["note.txt"], .bytes "keep".toUTF8)]

/-- What a run on this disk is asked to do. -/
def notedOptions : Options := { input := "clicks.txt", emit := some "clicks.json" }

/-- Making an archive and a document beside a note leaves the bytes of the note alone. -/
theorem run_touches_notedDisk :
    let fs := diskFiles Content.toBytes
    let made := outcome (run fs.host Supply.counting 0 notedOptions) notedDisk
    made.1 = .ok (some "clicks.aia") ∧ ¬ fs.Changed notedDisk made.2 ["home", "note.txt"] := by
  intro fs made
  have hrun : made.1 = .ok (some "clicks.aia") := toOption_eq_some_iff.mp (by decide +kernel)
  have harchive : fs.target notedDisk "clicks.aia" = some ["home", "clicks.aia"] := by
    decide +kernel
  have hdocument : fs.target notedDisk "clicks.json" = some ["home", "clicks.json"] := by
    decide +kernel
  refine ⟨hrun, fun hnote ↦ ?_⟩
  obtain ⟨-, -, -, -, htouched⟩ :=
    (fs.run_touches Supply.counting 0 notedOptions rfl).1 "clicks.aia" hrun
  rcases htouched _ hnote with htarget | ⟨path, hpath, htarget⟩
  · rw [harchive] at htarget
    exact absurd htarget (by decide)
  · obtain rfl := Option.some.inj hpath
    rw [hdocument] at htarget
    exact absurd htarget (by decide)

end FileSystem

end Blockwright.Command
