import Blockwright.Config
import Blockwright.Path
import Blockwright.Text.Lowercase

/-!
# Extensions

Component kinds that a project brings along. An extension may come with a file, its payload,
whose content is either at hand or read when the project is made.
-/

namespace Blockwright

/-- Where the content of a payload comes from. -/
inductive PayloadSource where
  | bytes (content : ByteArray)
  | file (path : String)

/-- A file to be packed with a project. -/
structure Payload where
  fileName : String
  source : PayloadSource

/-- The payload that a file holds; it keeps the file's name. -/
def Payload.ofFile (path : String) : Payload :=
  ⟨(Path.fileName? path).getD path, .file path⟩

/-- An extension that a project brings along. -/
structure Extension extends ExtensionInfo where
  payload : Option Payload := none

/-- The extension that a file with the ending `.aix` holds. The file's stem names it. -/
def Extension.ofFile? (path : String) : Option Extension := do
  let fileName ← Path.fileName? path
  match ".aix".toList.reverse.isPrefixOf? fileName.toList.reverse with
  | some (c :: stem) =>
    let name := String.ofList (c :: stem).reverse
    return { name, version := "1", uuid := "com.extension." ++ Text.lowercase name,
             payload := some (.ofFile path) }
  | _ => none

end Blockwright
