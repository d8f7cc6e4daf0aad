import Blockwright.Properties

/-!
# Configuration

The tables that a project is made with: how the project is named, which kinds of components are
known, which colours have names, and which extensions are known from the start. A table may hold
several rows for one name; looking a name up gives the first of them.
-/

namespace Blockwright

/-- How a project is named. -/
structure Naming where
  name : String
  /-- The dotted name of the package that holds the project. -/
  package : String
  screen : String
  deriving DecidableEq, Repr

namespace Naming

/-- The names of a project when none are given. -/
def builtIn : Naming := ⟨"ConvertedApp", "appinventor.ai_anonymous", "Screen1"⟩

/-- The folder of a project's sources. -/
def sourceDir (n : Naming) : String :=
  "src/" ++ String.ofList (n.package.toList.map (fun c ↦ if c = '.' then '/' else c)) ++
    "/" ++ n.name

/-- The class that a project starts with. -/
def mainClass (n : Naming) : String := n.package ++ "." ++ n.name ++ "." ++ n.screen

end Naming

/-- A known kind of components. -/
structure Kind where
  /-- What the names of its components start with. -/
  stem : String
  typeName : String
  version : String
  /-- Whether a component shows its own name as text. -/
  textFromName : Bool := false
  /-- The properties that every component of the kind has. -/
  defaults : Properties := .empty
  deriving DecidableEq, Repr

/-- A colour with a name. -/
structure Color where
  name : String
  argb : String
  /-- The type of the block that shows it. -/
  block : String
  deriving DecidableEq, Repr

/-- An extension, apart from its file. -/
structure ExtensionInfo where
  name : String
  version : String
  uuid : String
  deriving DecidableEq, Repr

/-- The tables that a project is made with. -/
structure Config where
  naming : Naming
  kinds : List Kind
  /-- The type of components of no known kind. -/
  defaultKind : String
  colors : List Color
  extensions : List ExtensionInfo
  deriving DecidableEq, Repr

namespace Config

/-- The kinds of components known from the start. -/
def builtInKinds : List Kind :=
  [{ stem := "Screen", typeName := "Form", version := "11" },
    { stem := "Button", typeName := "Button", version := "5", textFromName := true },
    { stem := "Label", typeName := "Label", version := "2", textFromName := true,
      defaults := .ofList [("FontSize", "14")] },
    { stem := "TextBox", typeName := "TextBox", version := "2" },
    { stem := "Image", typeName := "Image", version := "2" },
    { stem := "Player", typeName := "Player", version := "2" },
    { stem := "Clock", typeName := "Clock", version := "2" },
    { stem := "TinyDB", typeName := "TinyDB", version := "2" },
    { stem := "Notifier", typeName := "Notifier", version := "2" }]

/-- The colours known from the start. -/
def builtInColors : List Color :=
  [⟨"Red", "&HFFFF0000", "color_red"⟩, ⟨"Green", "&HFF00FF00", "color_green"⟩,
    ⟨"Blue", "&HFF0000FF", "color_blue"⟩, ⟨"Yellow", "&HFFFFFF00", "color_yellow"⟩,
    ⟨"White", "&HFFFFFFFF", "color_white"⟩, ⟨"Black", "&HFF000000", "color_black"⟩,
    ⟨"Gray", "&HFF808080", "color_gray"⟩, ⟨"Orange", "&HFFFFA500", "color_orange"⟩,
    ⟨"Purple", "&HFF800080", "color_magenta"⟩, ⟨"Pink", "&HFFFFC0CB", "color_pink"⟩]

/-- The configuration used when none is given. -/
def builtIn : Config where
  naming := .builtIn
  kinds := builtInKinds
  defaultKind := "Button"
  colors := builtInColors
  extensions := [⟨"GestureDetector", "1", "com.extension.aryan.gupta.gesturesdetector"⟩]

/-- The first kind of a type. -/
def kind? (c : Config) (typeName : String) : Option Kind :=
  c.kinds.find? (fun kind ↦ kind.typeName == typeName)

/-- The first colour of a name. -/
def color? (c : Config) (name : String) : Option Color :=
  c.colors.find? (fun color ↦ color.name == name)

end Config

end Blockwright
