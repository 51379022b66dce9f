/-!
# Files

What reading the file at a path gives: its text, or why there is none.
-/

namespace SourceIndex

/-- Why a file gives no text. -/
inductive FileError where
  | missing
  /-- The path goes on after the name of a file. -/
  | notDirectory
  | directory
  | notText
deriving Repr, DecidableEq

namespace FileError

/-- The wording of an error. -/
def message : FileError → String
  | missing => "No such file or directory (os error 2)"
  | notDirectory => "Not a directory (os error 20)"
  | directory => "Is a directory (os error 21)"
  | notText => "stream did not contain valid UTF-8"

/-- Whether nothing is found at the path. -/
def isAbsence : FileError → Bool
  | missing | notDirectory => true
  | directory | notText => false

end FileError

/-- The text of a file, or why there is none. -/
abbrev File := Except FileError String

end SourceIndex
