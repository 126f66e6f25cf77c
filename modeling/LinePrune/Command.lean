import LinePrune.Config.Load
import LinePrune.Options
import LinePrune.Report

namespace LinePrune

/-- Standard output stays empty whenever a run fails. -/
structure RunResult where
  exitCode : Nat
  output : String
  errors : String
  deriving DecidableEq, Repr

inductive RunError where
  | load (cause : LoadError)
  | emptyTarget
  | render (cause : RenderError)
  | edit (cause : EditError)
  deriving DecidableEq, Repr

def RunError.headline : RunError → String
  | .load cause => cause.headline
  | .emptyTarget => "--target must be a non-empty path"
  | .render cause => cause.message
  | .edit cause => cause.message

namespace Command

def version : String := "linefix 0.1.0\n"

def help : String :=
  "Remove dangling lines at fixed positions from a source file\n" ++
  "\n" ++
  "Usage: linefix [OPTIONS]\n" ++
  "\n" ++
  "Options:\n" ++
  "      --target <TARGET>  File to edit (overrides `target` from the config file)\n" ++
  "      --config <CONFIG>  TOML config with `target` and `[rules]` " ++
  "(default: `linefix.toml` if present)\n" ++
  "      --show-rules       Print the effective configuration as TOML and exit without editing\n" ++
  "  -h, --help             Print help\n" ++
  "  -V, --version          Print version\n"

/-- The file that holds the configuration when no other is named. -/
def configFile : RawText := "linefix.toml"

def exitFailure : Nat := 1

def exitUsage : Nat := 2

/-- A target on the command line goes before the one in the configuration. -/
def overrideTarget (options : Options) (config : Config) : Except RunError Config :=
  match options.target with
  | none => .ok config
  | some target =>
      if target.isEmpty then .error .emptyTarget else .ok { config with target := target }

/-- The lines of a text each end with a line feed. -/
def linesOutput (lines : List String) : String :=
  String.join (lines.map fun line => line ++ "\n")

def outcomeResult (config : Config) (outcome : Outcome) : RunResult :=
  ⟨outcome.exitCode, linesOutput (outcome.report config.target), ""⟩

def failure (error : RunError) : RunResult :=
  ⟨exitFailure, "", error.headline ++ "\n"⟩

def showRules (config : Config) : RunResult :=
  match config.render with
  | .error cause => failure (.render cause)
  | .ok text => ⟨0, text, ""⟩

@[simp] theorem exitCode_outcomeResult (config : Config) (outcome : Outcome) :
    (outcomeResult config outcome).exitCode = outcome.exitCode := rfl

@[simp] theorem output_outcomeResult (config : Config) (outcome : Outcome) :
    (outcomeResult config outcome).output = linesOutput (outcome.report config.target) := rfl

@[simp] theorem exitCode_failure (error : RunError) : (failure error).exitCode = 1 := rfl

@[simp] theorem output_failure (error : RunError) : (failure error).output = "" := rfl

variable {m : Type → Type} [Monad m] [FileAccess m]

/-- A configuration file that is named must exist, and the usual one need not. -/
def loadConfig (options : Options) : m (Except LoadError Config) :=
  match options.config with
  | some path => Config.loadFile path
  | none => Config.load configFile

def editTarget (config : Config) : m RunResult := do
  match ← edit config.target config.rules with
  | .error cause => return failure (.edit cause)
  | .ok outcome => return outcomeResult config outcome

/-- The configuration that a run goes by. -/
def resolveConfig (options : Options) : m (Except RunError Config) := do
  match ← loadConfig options with
  | .error cause => return .error (.load cause)
  | .ok loaded => return overrideTarget options loaded

def runOptions (options : Options) : m RunResult := do
  match ← resolveConfig options with
  | .error cause => return failure cause
  | .ok config => if options.showRules then return showRules config else editTarget config

def run (arguments : List RawText) : m RunResult :=
  match Request.ofArguments arguments with
  | .error cause => return ⟨exitUsage, "", cause.message ++ "\n"⟩
  | .ok .help => return ⟨0, help, ""⟩
  | .ok .version => return ⟨0, version, ""⟩
  | .ok (.run options) => runOptions options

end Command

end LinePrune
