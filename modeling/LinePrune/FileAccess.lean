/-
This file lists what a run asks of the place that holds its files.
-/

import LinePrune.Text.Raw

namespace LinePrune

/-- A cause says why a file could not be read or written. -/
inductive FileError where
  | notFound
  | notDirectory
  | isDirectory
  | nameTooLong
  | notText
  | nulInPath
  | unexpected (description : String)
  deriving DecidableEq, Repr

def FileError.message : FileError → String
  | .notFound => "No such file or directory (os error 2)"
  | .notDirectory => "Not a directory (os error 20)"
  | .isDirectory => "Is a directory (os error 21)"
  | .nameTooLong => "File name too long (os error 36)"
  | .notText => "stream did not contain valid UTF-8"
  | .nulInPath => "file name contained an unexpected NUL byte"
  | .unexpected description => description

/-- A run only asks whether something exists, reads a text, and overwrites a file. -/
class FileAccess (m : Type → Type) where
  pathExists : RawText → m Bool
  readText : RawText → m (Except FileError String)
  writeText : RawText → String → m (Except FileError Unit)

end LinePrune
