import Blockwright.Extension
import Blockwright.Ordered

/-!
# The catalogue of component types

The type of a component is found from its name: the longest extension name that the name starts
with, else the kind with the longest stem that it starts with, else the default kind. Length is
counted in bytes, and of several of the same length the last is taken.
-/

namespace Blockwright

/-- Where the type of a component was found. -/
inductive TypeSource where
  | extension
  | kind
  | default
  deriving DecidableEq, Repr

/-- The type of a component and where it was found. -/
structure ComponentType where
  name : String
  source : TypeSource
  deriving DecidableEq, Repr

/-- Whether the type of a component is an extension. -/
def ComponentType.isExtension (t : ComponentType) : Bool := t.source = .extension

/-- A configuration together with all extensions that can be used. -/
structure Catalog where
  config : Config
  /-- The extensions by name, in ascending order of the names. -/
  extensions : List (String × ExtensionInfo)
  deriving DecidableEq, Repr

/-- Whether a name starts with another. -/
def startsWith (name stem : String) : Bool := stem.toList.isPrefixOf name.toList

/-- The last of the longest among those items whose text a name starts with. -/
def longestStem? {α : Type} (text : α → String) (name : String) (items : List α) : Option α :=
  (items.filter (fun item ↦ startsWith name (text item))).foldl (fun best item ↦
    match best with
    | some b => if (text b).utf8ByteSize ≤ (text item).utf8ByteSize then some item else some b
    | none => some item) none

namespace Catalog

/-- The catalogue of a configuration and the extensions that a project brings along; an extension
replaces an earlier one of the same name. -/
def ofExtensions (config : Config) (extensions : List Extension) : Catalog where
  config := config
  extensions := Ordered.ofList
    ((config.extensions ++ extensions.map Extension.toExtensionInfo).map (fun e ↦ (e.name, e)))

/-- The extension of a name. -/
def extension? (c : Catalog) (name : String) : Option ExtensionInfo :=
  Ordered.get? name c.extensions

/-- The type of a component. -/
def typeOf (c : Catalog) (component : String) : ComponentType :=
  match longestStem? Prod.fst component c.extensions with
  | some entry => ⟨entry.1, .extension⟩
  | none =>
    match longestStem? Kind.stem component c.config.kinds with
    | some kind => ⟨kind.typeName, .kind⟩
    | none => ⟨c.config.defaultKind, .default⟩

end Catalog

/-- Whether a component is a screen, which is no component of the form. -/
def isScreen (component : String) : Bool := startsWith component "Screen"

end Blockwright
