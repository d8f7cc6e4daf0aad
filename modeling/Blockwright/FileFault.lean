/-!
# Why a file cannot be used
-/

namespace Blockwright

/-- Why a file cannot be read or written. -/
inductive FileFault where
  /-- Nothing is there. -/
  | missing
  /-- Something on the way is not a folder. -/
  | notFolder
  /-- It is a folder. -/
  | folder
  /-- Its name, or the path to it, has too many bytes. -/
  | nameTooLong
  /-- The path to it has a NUL in it. -/
  | nulInName
  /-- Its content is not UTF-8. -/
  | notText
  /-- Any other reason, in words. -/
  | other (message : String)
  deriving DecidableEq, Repr

/-- The message of a fault. -/
def FileFault.message : FileFault → String
  | missing => "No such file or directory (os error 2)"
  | notFolder => "Not a directory (os error 20)"
  | folder => "Is a directory (os error 21)"
  | nameTooLong => "File name too long (os error 36)"
  | nulInName => "file name contained an unexpected NUL byte"
  | notText => "stream did not contain valid UTF-8"
  | other message => message

end Blockwright
