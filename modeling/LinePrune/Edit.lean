import LinePrune.Selection
import LinePrune.Target

namespace LinePrune

/-- The outcome tells what an edit did to its target. -/
inductive Outcome where
  | notFound (path : RawText)
  | unchanged
  | updated (removed : List Removal)
  deriving DecidableEq, Repr

def Outcome.removedCount : Outcome → Nat
  | .notFound _ => 0
  | .unchanged => 0
  | .updated removed => removed.length

inductive EditError where
  | invalidRules (defects : List Rules.Defect)
  | target (cause : TargetError)
  deriving DecidableEq, Repr

def EditError.message : EditError → String
  | .invalidRules defects => Rules.defectsMessage defects
  | .target cause => cause.message

variable {m : Type → Type} [Monad m] [FileAccess m]

/-- The target is overwritten only when the rules remove one of its lines. -/
def Rules.applyToTarget (rules : Rules) (path : RawText) : m (Except EditError Outcome) := do
  match ← Target.read path with
  | .error cause => return .error (.target cause)
  | .ok lines =>
      let selection := rules.select lines
      if selection.removed.isEmpty then return .ok .unchanged
      else
        match ← Target.write path selection.retained with
        | .error cause => return .error (.target cause)
        | .ok _ => return .ok (.updated selection.removed)

/-- Defective rules are refused before the target is looked for. -/
def edit (path : RawText) (rules : Rules) : m (Except EditError Outcome) := do
  if rules.defects.isEmpty then
    if ← FileAccess.pathExists path then rules.applyToTarget path
    else return .ok (.notFound path)
  else return .error (.invalidRules rules.defects)

end LinePrune
