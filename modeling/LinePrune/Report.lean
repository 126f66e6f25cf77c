import LinePrune.Edit
import LinePrune.Path

namespace LinePrune

/-- Removed content is quoted, so that blanks and terminators can be seen. -/
def Removal.report (removal : Removal) : String :=
  "Removing line " ++ toString removal.number ++ ": " ++ Text.quoted removal.content

def Outcome.report (path : RawText) : Outcome → List String
  | .notFound missing => ["Error: " ++ missing.display ++ " not found"]
  | .unchanged => ["No lines were removed. Check line numbers or content."]
  | .updated removed =>
      removed.map Removal.report ++
        ["Successfully updated " ++ Path.shownName path ++ ", removed " ++
          toString removed.length ++ " lines"]

/-- A missing target has an exit code of its own, which is neither success nor failure. -/
def Outcome.exitCode : Outcome → Nat
  | .notFound _ => 3
  | .unchanged => 0
  | .updated _ => 0

end LinePrune
