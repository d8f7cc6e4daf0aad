import Blockwright.Command.Run

/-!
# A disk in memory

A disk on which a run can be carried out without touching real files. A place on it is the list
of names that leads there from the root. A path is followed from the root if it starts with a
separator and from the home folder otherwise, and every part of it but the last has to lead to a
folder.
-/

namespace Blockwright.Command

/-- A place on a disk. -/
abbrev Place := List String

/-- The folders and files of a disk. The folders around a folder are there as well. -/
structure Disk where
  /-- The folder in which a run is started. -/
  home : Place
  folders : List Place
  files : List (Place × Content)

namespace Disk

/-- The files in the home folder and below it, with their places seen from there. -/
def homeFiles (d : Disk) : List (Place × Content) :=
  (d.files.filter (fun file ↦ d.home.isPrefixOf file.1)).map fun file ↦
    (file.1.drop d.home.length, file.2)

/-- Whether a place is a folder. -/
def isFolder (d : Disk) (place : Place) : Bool :=
  (d.home :: d.folders).any (fun folder ↦ place.isPrefixOf folder)

/-- The content of the file at a place. -/
def file? (d : Disk) (place : Place) : Option Content :=
  (d.files.find? (fun file ↦ file.1 == place)).map (·.2)

/-- Checks that a place is a folder. -/
def requireFolder (d : Disk) (place : Place) : Except FileFault Unit :=
  if d.isFolder place then .ok ()
  else .error (if (d.file? place).isSome then .notFolder else .missing)

/-- The most bytes that the name of a file or a folder can have. -/
def maxNameSize : Nat := 255

/-- The most bytes that a path can have. -/
def maxPathSize : Nat := 4095

/-- Checks what can be said of a path without following it. -/
def checkPath (path : String) : Except FileFault Unit :=
  if path.toList.contains '\x00' then .error .nulInName
  else if maxPathSize < path.utf8ByteSize then .error .nameTooLong
  else if path = "" then .error .missing
  else .ok ()

/-- The place that one more part of a path leads to. The root is around itself. -/
def step (d : Disk) (place : Place) (part : String) : Except FileFault Place := do
  d.requireFolder place
  if part = "" ∨ part = "." then return place
  else if part = ".." then return place.dropLast
  else if maxNameSize < part.utf8ByteSize then .error .nameTooLong
  else return place ++ [part]

/-- The parts of a path. -/
def pathParts (path : String) : List String := (path.toList.splitOn '/').map String.ofList

/-- The place that a path leads to, seen from where it is followed, if no part of it leads back. -/
def placeOf (path : String) : Place :=
  (pathParts path).filter (fun part ↦ part != "" && part != ".")

/-- The place from which a path is followed. -/
def origin (d : Disk) (path : String) : Place := if path.startsWith "/" then [] else d.home

/-- The place that parts of a path lead to from a place. -/
def walk (d : Disk) (place : Place) (parts : List String) : Except FileFault Place :=
  parts.foldlM d.step place

/-- The place that a path leads to. -/
def locate (d : Disk) (path : String) : Except FileFault Place := do
  checkPath path
  d.walk (d.origin path) (pathParts path)

/-- Reads a file. -/
def read (d : Disk) (path : String) : Except FileFault Content := do
  let place ← d.locate path
  if d.isFolder place then .error .folder
  else (d.file? place).elim (.error .missing) .ok

/-- A disk with a content at a place. -/
def put (d : Disk) (place : Place) (content : Content) : Disk :=
  { d with files := (place, content) :: d.files.filter (fun file ↦ file.1 != place) }

/-- A disk that holds a home folder with some folders and files in it, and nothing else. The
places are seen from the home folder, and of several files at one place the last is there. -/
def ofHome (home : Place) (folders : List Place) (files : List (Place × Content)) : Disk :=
  files.foldl (fun d file ↦ d.put (home ++ file.1) file.2)
    { home, folders := (folders ++ files.map (·.1.dropLast)).map (home ++ ·), files := [] }

/-- The place that a path names for writing. A path that ends in a separator names a folder,
whether its last name leads anywhere or not. -/
def target (d : Disk) (path : String) : Except FileFault Place := do
  checkPath path
  match (pathParts path).reverse.dropWhile (· == "") with
  | [] => .error .folder
  | name :: before =>
    let folder ← d.walk (d.origin path) before.reverse
    d.requireFolder folder
    if path.endsWith "/" then .error .folder
    let place ← d.step folder name
    if d.isFolder place then .error .folder else return place

/-- Writes a file; a file that cannot be written leaves the disk as it was. -/
def write (d : Disk) (path : String) (content : Content) : Except FileFault Disk := do
  return d.put (← d.target path) content

end Disk

/-- A run's host whose files are on a disk in memory. What is reported is not kept. -/
def diskHost : Host (StateM Disk) where
  readFile path := do return ((← get).read path).map Content.toBytes
  writeFile path content := do
    match (← get).write path content with
    | .ok d => set d; return .ok ()
    | .error fault => return .error fault
  report _ := return ()

end Blockwright.Command
