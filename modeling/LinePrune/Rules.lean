import LinePrune.Line
import LinePrune.Positions
import LinePrune.Text.Quoted
import LinePrune.Text.Search

namespace LinePrune

structure Rules where
  conditional : Positions
  triggers : List String
  unconditional : Positions
  deriving DecidableEq, Repr

/-- The default rules are those of the file that the default target names. -/
def Rules.default : Rules where
  conditional := .ofList [410, 411]
  triggers := ["],", "\x7d,"]
  unconditional := .ofList [508, 509, 510]

/-- The reason tells which kind of position a removed line had. -/
inductive Reason where
  | trigger
  | unconditional
  deriving DecidableEq, Repr

inductive Disposition where
  | keep
  | remove (reason : Reason)
  deriving DecidableEq, Repr

namespace Rules

/-- The first trigger in list order wins. -/
def matchingTrigger (rules : Rules) (text : String) : Option String :=
  rules.triggers.find? fun trigger => Text.contains text trigger

/-- A conditional position is decided by its text alone, even when it is also unconditional. -/
def disposition (rules : Rules) (number : Nat) (text : String) : Disposition :=
  if rules.conditional.contains number then
    if (rules.matchingTrigger text).isSome then .remove .trigger else .keep
  else if rules.unconditional.contains number then .remove .unconditional
  else .keep

/-- A defect is one way in which a set of rules breaks what every run relies on. -/
inductive Defect where
  | zeroConditional
  | zeroUnconditional
  | overlap (position : Position)
  | emptyTrigger
  | terminatorInTrigger (trigger : String)
  | missingTrigger
  deriving DecidableEq, Repr

def Defect.message : Defect → String
  | .zeroConditional => "conditional: line numbers start at 1, found 0"
  | .zeroUnconditional => "unconditional: line numbers start at 1, found 0"
  | .overlap position =>
      "line " ++ toString position.toNat ++ " is listed as both conditional and unconditional"
  | .emptyTrigger => "triggers: empty trigger would match every line"
  | .terminatorInTrigger trigger =>
      "triggers: " ++ Text.quoted trigger ++ " must not contain line terminators"
  | .missingTrigger => "conditional positions require at least one trigger"

def hasTerminator (text : String) : Bool :=
  text.toList.any fun c => c = '\n' || c = '\r'

def triggerDefect? (trigger : String) : Option Defect :=
  if trigger.isEmpty then some .emptyTrigger
  else if hasTerminator trigger then some (.terminatorInTrigger trigger)
  else none

/-- Every defect is listed, position defects first and the triggers in list order. -/
def defects (rules : Rules) : List Defect :=
  (if rules.conditional.contains 0 then [.zeroConditional] else [])
    ++ (if rules.unconditional.contains 0 then [.zeroUnconditional] else [])
    ++ (rules.conditional.overlap rules.unconditional).map .overlap
    ++ rules.triggers.filterMap triggerDefect?
    ++ (if rules.conditional.members ≠ [] ∧ rules.triggers = [] then [.missingTrigger] else [])

/-- Rules without defects are those that meet all five conditions at once. -/
theorem defects_eq_nil_iff {rules : Rules} :
    rules.defects = [] ↔
      rules.conditional.contains 0 = false ∧ rules.unconditional.contains 0 = false ∧
      rules.conditional.overlap rules.unconditional = [] ∧
      (∀ trigger ∈ rules.triggers, triggerDefect? trigger = none) ∧
      (rules.conditional.members ≠ [] → rules.triggers ≠ []) := by
  simp [defects]

/-- Rules without defects leave no line number to both kinds of positions. -/
theorem unconditional_of_conditional {rules : Rules} (sound : rules.defects = []) {number : Nat}
    (conditional : rules.conditional.contains number = true) :
    rules.unconditional.contains number = false :=
  Positions.overlap_eq_nil_iff.mp (defects_eq_nil_iff.mp sound).2.2.1 number conditional

theorem hasTerminator_eq_false_iff {text : String} :
    hasTerminator text = false ↔ ∀ c ∈ text.toList, c ≠ '\n' ∧ c ≠ '\r' := by
  simp [hasTerminator]

theorem matchingTrigger_isSome_iff {rules : Rules} {text : String} :
    (rules.matchingTrigger text).isSome = true ↔
      ∃ trigger ∈ rules.triggers, Text.Holds text trigger := by
  simp [matchingTrigger, Text.contains_iff_holds]

theorem disposition_eq_trigger_iff {rules : Rules} {number : Nat} {text : String} :
    rules.disposition number text = .remove .trigger ↔
      rules.conditional.contains number = true ∧
        ∃ trigger ∈ rules.triggers, Text.Holds text trigger := by
  rw [← matchingTrigger_isSome_iff, disposition]
  split
  next conditional => split <;> simp [*]
  next notConditional => split <;> simp [*]

theorem disposition_eq_unconditional_iff {rules : Rules} {number : Nat} {text : String} :
    rules.disposition number text = .remove .unconditional ↔
      rules.conditional.contains number = false ∧
        rules.unconditional.contains number = true := by
  rw [disposition]
  split
  next conditional => split <;> simp [*]
  next notConditional => split <;> simp [*]

/-- If the rules have no defects, an unconditional position is dropped for that reason alone. -/
theorem disposition_of_unconditional {rules : Rules} (sound : rules.defects = []) {number : Nat}
    {text : String} (unconditional : rules.unconditional.contains number = true) :
    rules.disposition number text = .remove .unconditional := by
  refine disposition_eq_unconditional_iff.mpr ⟨?_, unconditional⟩
  rw [← Bool.not_eq_true]
  intro conditional
  rw [unconditional_of_conditional sound conditional] at unconditional
  contradiction

/-- The message gives each defect a line of its own. -/
def defectsMessage (defects : List Defect) : String :=
  "invalid rules:\n- " ++ "\n- ".intercalate (defects.map Defect.message)

end Rules

end LinePrune
