import Blockwright.Archive
import Blockwright.Block.Markup
import Blockwright.Form.Document
import Blockwright.Project.Files

/-!
# Projects

A project is made from a program: it is checked, the payloads of its extensions are read, and
only then identifiers are drawn and entries made. So a program or an extension that is refused
leaves nothing behind.
-/

namespace Blockwright

/-- Why a handler cannot be used, if it cannot. -/
def Script.Program.eventFailure? (p : Script.Program) (position : Nat) (e : Script.Event) :
    Option Failure :=
  if e.component.isEmpty || e.event.isEmpty then some (.unnamedEvent position)
  else if e.component ∈ p.components then none
  else some (.unlistedComponent position e.component)

/-- Checks that every handler is named and belongs to one of the program's components. The first
handler at fault is the one reported. -/
def Script.Program.check (p : Script.Program) : Except Failure Unit :=
  match p.events.zipIdx.findSome? (fun entry ↦ p.eventFailure? entry.2 entry.1) with
  | some failure => .error failure
  | none => .ok ()

/-- The path of a payload. -/
def Payload.path (payload : Payload) : String := "assets/" ++ payload.fileName

section Reading

variable {m : Type → Type} [Monad m]

/-- Reads the content of a payload. -/
def Payload.read (readFile : String → m (Except FileFault ByteArray)) (payload : Payload) :
    ExceptT Failure m Entry := do
  match payload.source with
  | .bytes content => return ⟨payload.path, content⟩
  | .file path =>
    match ← readFile path with
    | .ok content => return ⟨payload.path, content⟩
    | .error fault => throw (.payload payload.fileName fault)

/-- Reads the payloads of extensions one after the other. -/
def Extension.readPayloads (readFile : String → m (Except FileFault ByteArray))
    (extensions : List Extension) : ExceptT Failure m (List Entry) :=
  (extensions.filterMap Extension.payload).mapM (Payload.read readFile)

end Reading

/-- The files of a project in the order in which they are packed, with the reports of what was
left out of its blocks. -/
structure Project where
  entries : List Entry
  warnings : List Warning

namespace Project

/-- The project of a program that has been checked and whose payloads have been read. -/
def build {σ : Type} (catalog : Catalog) (supply : Supply σ) (p : Script.Program)
    (payloads : List Entry) (s : σ) : Project × σ :=
  let naming := catalog.config.naming
  let (form, s) := Form.ofProgram catalog supply p s
  let (warnings, placed) := catalog.canvas p
  ({ entries := [
       .ofText propertiesPath naming.properties,
       .ofText naming.formPath form.written,
       .ofText naming.blocksPath (blocksDocument placed).written,
       .ofText assetsNotePath assetsNote,
       .ofText buildNotePath buildNote] ++ payloads
     warnings }, s)

/-- Makes the project of a program. Identifiers are drawn only if the program is not refused. -/
def make {m : Type → Type} [Monad m] {σ : Type}
    (readFile : String → m (Except FileFault ByteArray)) (config : Config) (supply : Supply σ)
    (p : Script.Program) (extensions : List Extension) (s : σ) :
    m (Except Failure Project × σ) := do
  match p.check with
  | .error failure => return (.error failure, s)
  | .ok () =>
    match ← (Extension.readPayloads readFile extensions).run with
    | .error failure => return (.error failure, s)
    | .ok payloads =>
      let (project, s) := build (.ofExtensions config extensions) supply p payloads s
      return (.ok project, s)

/-- The archive of a project. -/
def archive (project : Project) : Except Failure Archive :=
  Archive.ofEntries project.entries

end Project

end Blockwright
