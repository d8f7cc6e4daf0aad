import Blockwright.Failure
import Blockwright.Form
import Blockwright.Json.Print
import Blockwright.Json.Record
import Blockwright.Text.Blank

/-!
# Forms as documents

A form is written as a document inside an envelope. The object of a component holds its four
fixed fields and after them its properties, so a property of the same key as a fixed field can
be written and cannot be read.
-/

namespace Blockwright

open Blockwright.Json

/-! ### Writing -/

/-- A component as a value. -/
def Component.toValue (c : Component) : Value :=
  .object ([("$Name", .text c.name), ("$Type", .text c.typeName), ("$Version", .text c.version),
    ("Uuid", .text c.uuid)] ++ c.properties.entries.map (fun entry ↦ (entry.1, .text entry.2)))

/-- The entry of a form for an extension. -/
def ExtensionInfo.toFormValue (e : ExtensionInfo) : Value :=
  .object [("$Name", .text e.name), ("$Version", .text e.version), ("$UUID", .text e.uuid)]

/-- A screen as a value. A list of no extensions is left out. -/
def Screen.toValue (s : Screen) : Value :=
  .object ([("$Name", .text s.name), ("$Type", .text s.typeName), ("$Version", .text s.version),
    ("Uuid", .text s.uuid), ("Title", .text s.title),
    ("$Components", .list (s.components.map Component.toValue))] ++
    if s.extensions.isEmpty then []
    else [("$Extensions", .list (s.extensions.map ExtensionInfo.toFormValue))])

/-- A form as a value. -/
def Form.toValue (f : Form) : Value :=
  .object [("YaVersion", .text f.format), ("Source", .text f.source),
    ("Properties", f.screen.toValue)]

/-- The written form. -/
def Form.written (f : Form) : String :=
  String.ofList ("#|\n$JSON\n".toList ++ f.toValue.compact "\n|#".toList)

/-! ### Reading -/

namespace Component

/-- How the fixed fields of a component are read. -/
def record : Record Tree Component where
  name := "struct FormComponent"
  fields := [needed "$Name", needed "$Type", needed "$Version", needed "Uuid"]
  blank := ⟨"", "", "", "", .empty⟩
  set key t c :=
    match key with
    | "$Name" => return { c with name := ← t.asText }
    | "$Type" => return { c with typeName := ← t.asText }
    | "$Version" => return { c with version := ← t.asText }
    | "Uuid" => return { c with uuid := ← t.asText }
    | _ => .ok c

/-- A component being read: the fixed fields seen, the component so far, and its other members
in written order. -/
abbrev Reading := List String × Component × List (String × Value)

/-- A component being read takes one more member. Four brackets are open around the value of
any member of a component. -/
def take (reading : Reading) (member : Option String × Tree) : Except Error Reading := do
  let (seen, component, others) := reading
  let key ← (readContent member.1).mapError .fault
  if record.has key then
    let (seen, component) ← record.take (seen, component) member
    return (seen, component, others)
  else
    let value ← (Value.ofTree (maxNesting - 4) member.2).mapError .fault
    return (seen, component, others ++ [(key, value)])

/-- The component that a tree holds. Members that are no fixed fields are its properties; they
are checked when the whole object is read. -/
def ofTree : Tree → Except Error Component
  | .object members ending => do
    let (seen, component, others) ← members.foldlM take ([], record.blank, [])
    (checkEnding ending).mapError .fault
    let component ← record.complete .missingField seen component
    let properties ← others.mapM (fun member ↦ return (member.1, ← member.2.asText))
    return { component with properties := .ofList properties }
  | tree => tree.mismatch record.name

end Component

/-- How the entry of a form for an extension is read. -/
def ExtensionInfo.formRecord : Record Tree ExtensionInfo where
  name := "struct FormExtension"
  fields := [needed "$Name", needed "$Version", needed "$UUID"]
  blank := ⟨"", "", ""⟩
  set key t e :=
    match key with
    | "$Name" => return { e with name := ← t.asText }
    | "$Version" => return { e with version := ← t.asText }
    | "$UUID" => return { e with uuid := ← t.asText }
    | _ => .ok e

/-- How a screen is read. -/
def Screen.record : Record Tree Screen where
  name := "struct ScreenProperties"
  fields := [needed "$Name", needed "$Type", needed "$Version", needed "Uuid", needed "Title",
    needed "$Components", optional "$Extensions"]
  blank := ⟨"", "", "", "", "", [], []⟩
  set key t s :=
    match key with
    | "$Name" => return { s with name := ← t.asText }
    | "$Type" => return { s with typeName := ← t.asText }
    | "$Version" => return { s with version := ← t.asText }
    | "Uuid" => return { s with uuid := ← t.asText }
    | "Title" => return { s with title := ← t.asText }
    | "$Components" => return { s with components := ← t.asList Component.ofTree }
    | "$Extensions" => return { s with extensions := ← t.asList ExtensionInfo.formRecord.ofTree }
    | _ => .ok s

namespace Form

/-- How a form is read. -/
def record : Record Tree Form where
  name := "struct FormFile"
  fields := [needed "YaVersion", needed "Source", needed "Properties"]
  blank := ⟨"", "", Screen.record.blank⟩
  set key t f :=
    match key with
    | "YaVersion" => return { f with format := ← t.asText }
    | "Source" => return { f with source := ← t.asText }
    | "Properties" => return { f with screen := ← Screen.record.ofTree t }
    | _ => .ok f

/-- What stands in the envelope of a form. Blanks around its marks do not count. -/
def unwrap? (text : List Char) : Option (List Char) := do
  let rest ← "#|".toList.isPrefixOf? (Text.trim text)
  let rest ← "$JSON".toList.isPrefixOf? (Text.trimStart rest)
  let content ← "|#".toList.reverse.isPrefixOf? (Text.trimEnd rest).reverse
  return content.reverse

/-- The form that a text holds. -/
def load (text : String) : Except Failure Form :=
  match unwrap? text.toList with
  | none => .error .noEnvelope
  | some content => (record.ofText (Text.trim content)).mapError .document

end Form

end Blockwright
