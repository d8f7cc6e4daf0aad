/-!
# Paths

A path is a text whose parts are separated by `/`. Separators and parts `.` at the end of a path
do not count, so `a/b`, `a/b/` and `a/b/.` all end in the name `b`.
-/

namespace Blockwright.Path

/-- A path, read backwards, without the separators and parts `.` that it ends with. -/
def dropTail : List Char → List Char
  | '/' :: path => dropTail path
  | '.' :: '/' :: path => dropTail path
  | path => path

/-- A path cut before its last name. The parts `.` and `..` are no names. -/
def cut? (path : List Char) : Option (List Char × List Char) :=
  let rest := dropTail path.reverse
  let name := (rest.takeWhile (· != '/')).reverse
  if name = [] ∨ name = ['.'] ∨ name = ['.', '.'] then none
  else some ((rest.dropWhile (· != '/')).reverse, name)

/-- The last name of a path. -/
def fileName? (path : String) : Option String :=
  (cut? path.toList).map (fun parts ↦ String.ofList parts.2)

/-- A name cut at its last dot, if there is a dot after its first character. -/
def cutName (name : List Char) : List Char × Option (List Char) :=
  let ending := name.reverse.takeWhile (· != '.')
  match name.reverse.dropWhile (· != '.') with
  | '.' :: c :: stem => ((c :: stem).reverse, some ending.reverse)
  | _ => (name, none)

/-- A text without the characters that lie wholly in its last `bytes` bytes. -/
def dropBytes (bytes : Nat) (path : List Char) : List Char :=
  let step (c : Char) (kept : List Char × Nat) : List Char × Nat :=
    if kept.1.isEmpty && c.utf8Size ≤ kept.2 then ([], kept.2 - c.utf8Size)
    else (c :: kept.1, kept.2)
  (path.foldr step ([], bytes)).1

/-- A path whose last name ends in the given extension after its stem; what follows the stem is
lost. -/
def setExtension (ending path : List Char) : List Char :=
  match cut? path with
  | none => path
  | some (folder, name) => folder ++ (cutName name).1 ++ '.' :: ending

/-- A path with its extension, if it has one, replaced by another. As many bytes as the old
extension has are first taken off the end of the path; so a last name `..x` becomes `..`, which
is no name and stays. -/
def withExtension (ending path : String) : String :=
  let cs := path.toList
  let shortened := match (cut? cs).bind (fun parts ↦ (cutName parts.2).2) with
    | some old => dropBytes (String.ofList old).utf8ByteSize cs
    | none => cs
  String.ofList (setExtension ending.toList shortened)

end Blockwright.Path
