import LinePrune.Rules
import LinePrune.Text.Raw
import LinePrune.Toml.Printer

namespace LinePrune

structure Config where
  target : RawText
  rules : Rules
  deriving DecidableEq, Repr

def Config.default : Config where
  target := "frontend/src/app/router.tsx"
  rules := .default

/-- An invalid configuration has no target, or rules with defects. -/
inductive InvalidConfig where
  | emptyTarget
  | invalidRules (defects : List Rules.Defect)
  deriving DecidableEq, Repr

def InvalidConfig.message : InvalidConfig → String
  | .emptyTarget => "target must be a non-empty path"
  | .invalidRules defects => Rules.defectsMessage defects

/-- A valid configuration cannot be written down when its target has stray bytes. -/
inductive RenderError where
  | invalid (cause : InvalidConfig)
  | targetNotText
  deriving DecidableEq, Repr

def RenderError.message : RenderError → String
  | .invalid cause => cause.message
  | .targetNotText => "serialize config toml: path contains invalid UTF-8 characters"

namespace Config

/-- The target is checked before the rules. -/
def validate (config : Config) : Except InvalidConfig Unit :=
  if config.target.isEmpty then .error .emptyTarget
  else if config.rules.defects.isEmpty then .ok ()
  else .error (.invalidRules config.rules.defects)

def writePositions (positions : Positions) : String :=
  Toml.writeArray (positions.members.map fun position => toString position.toNat)

def writeTriggers (triggers : List String) : String :=
  Toml.writeArray (triggers.map Toml.writeString)

/-- The written form has every member, the defaults included. -/
def write (target : String) (rules : Rules) : String :=
  Toml.writeAssignment "target" (Toml.writeString target) ++ "\n[rules]\n" ++
    Toml.writeAssignment "conditional" (writePositions rules.conditional) ++
    Toml.writeAssignment "triggers" (writeTriggers rules.triggers) ++
    Toml.writeAssignment "unconditional" (writePositions rules.unconditional)

/-- A line feed is added to a text that does not end with one. -/
def withFinalFeed (text : String) : String :=
  if text.toList.getLast? = some '\n' then text else text ++ "\n"

/-- Only a valid configuration is written, and only if its target is a text. -/
def render (config : Config) : Except RenderError String :=
  match config.validate with
  | .error cause => .error (.invalid cause)
  | .ok () =>
      match config.target.text? with
      | none => .error .targetNotText
      | some target => .ok (withFinalFeed (write target config.rules))

end Config

end LinePrune
