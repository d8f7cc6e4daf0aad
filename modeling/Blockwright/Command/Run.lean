import Blockwright.Archive.Stored
import Blockwright.Command.Options
import Blockwright.Config.Document
import Blockwright.Project
import Blockwright.Script.Assembly
import Blockwright.Script.Document

/-!
# A run

A run reads its input, writes the program's document if asked to, and makes and writes an archive
unless the program has problems or is only checked. It touches files only through its host.
-/

namespace Blockwright.Command

open Blockwright.Script

/-- What a run writes into a file. -/
inductive Content where
  | bytes (content : ByteArray)
  | archive (entries : Archive)

/-- The bytes of a content. -/
def Content.toBytes : Content → ByteArray
  | bytes content => content
  | archive entries => entries.bytes

/-- What a run needs of its surroundings. -/
structure Host (m : Type → Type) where
  readFile : String → m (Except FileFault ByteArray)
  writeFile : String → Content → m (Except FileFault Unit)
  /-- Shows a line to the person who started the run. -/
  report : String → m Unit

/-- Why a run fails. -/
inductive RunFailure where
  | reading (path : String) (fault : FileFault)
  | writing (path : String) (fault : FileFault)
  /-- The document of the program is refused. -/
  | program (failure : Failure)
  /-- The program has problems. -/
  | problems (count : Nat)
  /-- The configuration is refused. -/
  | config (path : String) (error : Json.Error)
  /-- A file given as an extension is none. -/
  | notExtension (path : String)
  /-- The project cannot be made. -/
  | generating (failure : Failure)
  deriving DecidableEq, Repr

/-- One link in the account of why a run fails. -/
inductive Cause where
  | words (text : String)
  | failure (failure : Failure)
  deriving DecidableEq, Repr

/-- Why a run fails, from the outermost account to the innermost. -/
def RunFailure.causes : RunFailure → List Cause
  | reading path fault => [.words ("Reading " ++ path), .words fault.message]
  | writing path fault => [.words ("Writing " ++ path), .words fault.message]
  | program failure => [.words "Parsing IR document", .failure failure]
  | problems count =>
    [.words (toString count ++ " problem(s) found; no archive written")]
  | config path error => [.words ("Parsing config " ++ path), .failure (.document error)]
  | notExtension path => [.words (path ++ " is not an .aix file")]
  | generating failure => [.words "Generating archive", .failure failure]

/-- The line that shows a diagnostic. -/
def diagnosticLine (d : Diagnostic) : String := "line " ++ toString d.line ++ ": " ++ d.message

/-- The extensions of some files. -/
def extensionsOf (paths : List String) : Except RunFailure (List Extension) :=
  paths.mapM (fun path ↦ (Extension.ofFile? path).elim (.error (.notExtension path)) .ok)

section

variable {m : Type → Type} [Monad m]

/-- Reads a text. -/
def Host.readText (host : Host m) (path : String) : ExceptT RunFailure m String := do
  match ← host.readFile path with
  | .error fault => throw (.reading path fault)
  | .ok content =>
    match String.fromUTF8? content with
    | some text => return text
    | none => throw (.reading path .notText)

/-- Writes a file. -/
def Host.write (host : Host m) (path : String) (content : Content) :
    ExceptT RunFailure m Unit := do
  match ← host.writeFile path content with
  | .error fault => throw (.writing path fault)
  | .ok () => return ()

/-- Reads the program of the input. -/
def loadProgram (host : Host m) (o : Options) : ExceptT RunFailure m Program := do
  let text ← host.readText o.input
  if o.fromDocument then liftM ((Program.load text).mapError RunFailure.program)
  else return Program.ofScript text

/-- Writes the document of the program, if asked to. -/
def emitProgram (host : Host m) (o : Options) (p : Program) : ExceptT RunFailure m Unit :=
  match o.emit with
  | some path => host.write path (.bytes p.written.toUTF8)
  | none => return ()

/-- Reads the configuration. -/
def loadConfig (host : Host m) (o : Options) : ExceptT RunFailure m Config := do
  match o.config with
  | some path =>
    let text ← host.readText path
    liftM ((Config.load text).mapError (RunFailure.config path))
  | none => return Config.builtIn

/-- Makes and writes the archive of a program; gives its path. -/
def writeArchive {σ : Type} (host : Host m) (supply : Supply σ) (s : σ) (o : Options)
    (p : Program) : ExceptT RunFailure m String := do
  let config ← loadConfig host o
  let extensions ← liftM (extensionsOf o.extensions)
  let (project, _) ← liftM (Project.make host.readFile config supply p extensions s)
  let archive ← liftM ((project.bind Project.archive).mapError RunFailure.generating)
  host.write o.outputPath (.archive archive)
  return o.outputPath

/-- Carries out a command line. Gives the path of the archive, or nothing if the input was only
checked. -/
def run {σ : Type} (host : Host m) (supply : Supply σ) (s : σ) (o : Options) :
    ExceptT RunFailure m (Option String) := do
  let p ← loadProgram host o
  emitProgram host o p
  p.diagnostics.forM (fun d ↦ host.report (diagnosticLine d))
  if p.isFaulty then throw (.problems p.diagnostics.length)
  else if o.checkOnly then return none
  else return some (← writeArchive host supply s o p)

end

end Blockwright.Command
