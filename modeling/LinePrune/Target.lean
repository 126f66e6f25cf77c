import LinePrune.FileAccess
import LinePrune.Line

namespace LinePrune

/-- A target error names the path that could not be used and the cause. -/
inductive TargetError where
  | unreadable (path : RawText) (cause : FileError)
  | unwritable (path : RawText) (cause : FileError)
  deriving DecidableEq, Repr

def TargetError.message : TargetError → String
  | .unreadable path cause => "read target " ++ path.display ++ ": " ++ cause.message
  | .unwritable path cause => "write target " ++ path.display ++ ": " ++ cause.message

namespace Target

variable {m : Type → Type} [Monad m] [FileAccess m]

def read (path : RawText) : m (Except TargetError (List Line)) := do
  match ← FileAccess.readText path with
  | .error cause => return .error (.unreadable path cause)
  | .ok contents => return .ok (Line.split contents)

/-- The answer is the number of bytes written. -/
def write (path : RawText) (lines : List Line) : m (Except TargetError Nat) := do
  let contents := Line.render lines
  match ← FileAccess.writeText path contents with
  | .error cause => return .error (.unwritable path cause)
  | .ok () => return .ok contents.utf8ByteSize

end Target

end LinePrune
