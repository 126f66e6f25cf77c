import LinePrune.Config.Decode
import LinePrune.FileAccess

namespace LinePrune

/-- A load error names the file and the stage at which it was turned down. The default
configuration has no file. -/
inductive LoadError where
  | unreadable (path : RawText) (cause : FileError)
  | notDocument (path : RawText)
  | notConfig (path : RawText) (mismatch : Config.Mismatch)
  | invalid (path : RawText) (cause : InvalidConfig)
  | invalidDefault (cause : InvalidConfig)
  deriving DecidableEq, Repr

namespace LoadError

def message : LoadError → String
  | .unreadable path cause => "read " ++ path.display ++ ": " ++ cause.message
  | .notDocument path => "parse " ++ path.display
  | .notConfig path mismatch => "parse " ++ path.display ++ ": " ++ mismatch.message
  | .invalid path cause => "validate " ++ path.display ++ ": " ++ cause.message
  | .invalidDefault cause => cause.message

/-- The headline leaves out what is wrong inside a document. -/
def headline : LoadError → String
  | .notConfig path _ => "parse " ++ path.display
  | error => error.message

end LoadError

namespace Config

/-- The path serves to tell the file in an error. -/
def ofText (path : RawText) (contents : String) : Except LoadError Config :=
  match Toml.parse? contents with
  | none => .error (.notDocument path)
  | some members =>
      match decode members with
      | .error mismatch => .error (.notConfig path mismatch)
      | .ok config =>
          match config.validate with
          | .error cause => .error (.invalid path cause)
          | .ok () => .ok config

variable {m : Type → Type} [Monad m] [FileAccess m]

/-- The file must exist. -/
def loadFile (path : RawText) : m (Except LoadError Config) := do
  match ← FileAccess.readText path with
  | .error cause => return .error (.unreadable path cause)
  | .ok contents => return ofText path contents

/-- A file that does not exist stands for the default configuration, which is validated like any
other. -/
def load (path : RawText) : m (Except LoadError Config) := do
  if ← FileAccess.pathExists path then loadFile path
  else
    match Config.default.validate with
    | .error cause => return .error (.invalidDefault cause)
    | .ok () => return .ok .default

end Config

end LinePrune
