import Blockwright.Catalog
import Blockwright.Identifier
import Blockwright.Script.Program

/-!
# Forms

The form of a project lists the components of its screen, with the type, the version and the
first properties of each, and the extensions that those components need.
-/

namespace Blockwright

/-- A component of a form. -/
structure Component where
  name : String
  typeName : String
  version : String
  uuid : String
  /-- The first properties. -/
  properties : Properties
  deriving DecidableEq, Repr

/-- The screen of a form. -/
structure Screen where
  name : String
  typeName : String
  version : String
  uuid : String
  title : String
  components : List Component
  extensions : List ExtensionInfo
  deriving DecidableEq, Repr

/-- A form. -/
structure Form where
  /-- The version of the form's format. -/
  format : String
  source : String
  screen : Screen
  deriving DecidableEq, Repr

namespace Catalog

/-- The version of components whose type is in no table. -/
def fallbackVersion : String := "2"

/-- The first properties of a component of a kind. Where the kind has a default of that name, it
hides the component's own name as text. -/
def firstProperties (kind : Kind) (component : String) : Properties :=
  .ofList ((if kind.textFromName then [("Text", component)] else []) ++ kind.defaults.entries)

/-- The component of a name with the given identifier. -/
def component (c : Catalog) (name uuid : String) : Component :=
  let type := c.typeOf name
  if type.isExtension then
    let version := ((c.extension? type.name).map ExtensionInfo.version).getD fallbackVersion
    ⟨name, type.name, version, uuid, .empty⟩
  else
    match c.config.kind? type.name with
    | some kind => ⟨name, type.name, kind.version, uuid, firstProperties kind name⟩
    | none => ⟨name, type.name, fallbackVersion, uuid, .empty⟩

/-- The components of some names, each with the next identifier of a supply. -/
def components {σ : Type} (c : Catalog) (supply : Supply σ) :
    List String → σ → List Component × σ
  | [], s => ([], s)
  | name :: names, s =>
    let (uuid, s) := supply s
    let (others, s) := components c supply names s
    (c.component name uuid :: others, s)

/-- The extensions that some components need, in the order in which they are first needed. -/
def neededExtensions (c : Catalog) (names : List String) : List ExtensionInfo :=
  let types := (names.map c.typeOf).filter ComponentType.isExtension
  (types.map ComponentType.name).eraseDups.filterMap c.extension?

end Catalog

namespace Script.Program

/-- The components that a program places on its form. -/
def placed (p : Program) : List String := p.components.filter (fun name ↦ !isScreen name)

end Script.Program

namespace Form

/-- The version of the format in which forms are written. -/
def currentFormat : String := "82"

/-- The version of a screen when no kind tells it. -/
def screenVersion : String := "11"

/-- The form of a program. -/
def ofProgram {σ : Type} (c : Catalog) (supply : Supply σ) (p : Script.Program) (s : σ) :
    Form × σ :=
  let (components, s) := c.components supply p.placed s
  let screen := c.config.naming.screen
  ({ format := currentFormat
     source := "Form"
     screen := {
       name := screen
       typeName := "Form"
       version := ((c.config.kind? "Form").map Kind.version).getD screenVersion
       uuid := "0"
       title := screen
       components
       extensions := c.neededExtensions p.placed } }, s)

end Form

end Blockwright
