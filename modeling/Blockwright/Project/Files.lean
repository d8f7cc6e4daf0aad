import Blockwright.Config

/-!
# The fixed files of a project
-/

namespace Blockwright

/-- The path of a project's properties. -/
def propertiesPath : String := "youngandroidproject/project.properties"

/-- The path of the note on assets. -/
def assetsNotePath : String := "assets/README.txt"

/-- The path of the note on build results. -/
def buildNotePath : String := "build/README.txt"

/-- The note on assets. -/
def assetsNote : String :=
  "This is the assets folder for your project.\n\n" ++
  "Any files you add here will be packaged with your application.\n\n" ++
  "If you have media files that you want to use in your app, copy them to this folder."

/-- The note on build results. -/
def buildNote : String :=
  "This is the build folder for your project.\n\n" ++
  "Files in this folder are generated automatically by App Inventor.\n\n" ++
  "Do not edit the files in this folder."

namespace Naming

/-- The properties of a project. -/
def properties (n : Naming) : String :=
  "\n".intercalate ["main=" ++ n.mainClass, "name=" ++ n.name, "assets=../assets",
    "source=../src", "build=../build", "versioncode=1", "versionname=1.0", "useslocation=False"]

/-- The path of a project's form. -/
def formPath (n : Naming) : String := n.sourceDir ++ "/" ++ n.screen ++ ".scm"

/-- The path of a project's blocks. -/
def blocksPath (n : Naming) : String := n.sourceDir ++ "/" ++ n.screen ++ ".bky"

end Naming

end Blockwright
