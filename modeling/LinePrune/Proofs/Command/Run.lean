import LinePrune.Command
import LinePrune.Proofs.Config.Loading
import LinePrune.Proofs.Edit.Contents
import LinePrune.Proofs.Options.Choices

namespace LinePrune

/-- The path of the file that holds the configuration, whether it is named or not. -/
def Options.configPath (options : Options) : RawText :=
  options.config.getD Command.configFile

/-- A target that is not empty is put in place of the one before. -/
theorem Command.overrideTarget_eq_ok_iff {options : Options} {config next : Config} :
    overrideTarget options config = .ok next ↔
      options.target ≠ some ("" : RawText) ∧
        next = { config with target := options.target.getD config.target } := by
  rw [overrideTarget]
  cases options.target with
  | none => simp [eq_comm (a := next)]
  | some target =>
      dsimp only
      split
      next empty => simp [RawText.isEmpty_iff.mp empty]
      next filled =>
        rw [RawText.isEmpty_iff] at filled
        simp [filled, eq_comm]

theorem Options.Filled.target_ne {options : Options} (filled : options.Filled) :
    options.target ≠ some ("" : RawText) :=
  filled .target

namespace FileTree

/-- What the file at a path is loaded as. -/
def configAt (tree : FileTree) (path : RawText) : Except LoadError Config :=
  match tree.readText path with
  | .error cause => .error (.unreadable path cause)
  | .ok contents => Config.ofText path contents

/-- Only the usual file may be missing. -/
def loadedConfig (tree : FileTree) (options : Options) : Except LoadError Config :=
  match options.config with
  | some path => tree.configAt path
  | none =>
      if tree.pathExists Command.configFile then tree.configAt Command.configFile
      else .ok .default

/-- The effective configuration of a run with these options. -/
def resolve (tree : FileTree) (options : Options) : Except RunError Config :=
  match tree.loadedConfig options with
  | .error cause => .error (.load cause)
  | .ok loaded => Command.overrideTarget options loaded

/-- The result of a run of the command on a tree comes with the tree that the run leaves. -/
def runCommand (tree : FileTree) (arguments : List RawText) : RunResult × FileTree :=
  (Command.run arguments : StateM FileTree RunResult).run tree

theorem run_loadFile_eq_configAt (tree : FileTree) (path : RawText) :
    (Config.loadFile path : StateM FileTree (Except LoadError Config)).run tree =
      (tree.configAt path, tree) := by
  rw [run_loadFile, configAt]
  cases tree.readText path with
  | error cause => rfl
  | ok contents => rfl

theorem run_loadConfig (tree : FileTree) (options : Options) :
    (Command.loadConfig options : StateM FileTree (Except LoadError Config)).run tree =
      (tree.loadedConfig options, tree) := by
  rw [Command.loadConfig, loadedConfig]
  cases options.config with
  | some path => exact run_loadFile_eq_configAt tree path
  | none =>
      simp only [run_load, run_loadFile_eq_configAt]
      split
      next => rfl
      next => rfl

/-- The outcome of an edit becomes the result of the run, and its error the reason to fail. -/
theorem run_editTarget (tree : FileTree) (config : Config) :
    (Command.editTarget config : StateM FileTree RunResult).run tree =
      match tree.runEdit config.target config.rules with
      | (.error cause, after) => (Command.failure (.edit cause), after)
      | (.ok outcome, after) => (Command.outcomeResult config outcome, after) := by
  rw [Command.editTarget, StateT.run_bind, runEdit]
  cases StateT.run (edit config.target config.rules : StateM FileTree _) tree with
  | mk answer after =>
      cases answer with
      | error cause => rfl
      | ok outcome => rfl

theorem run_resolveConfig (tree : FileTree) (options : Options) :
    (Command.resolveConfig options : StateM FileTree (Except RunError Config)).run tree =
      (tree.resolve options, tree) := by
  rw [Command.resolveConfig, run_bind_eq (run_loadConfig tree options), resolve]
  cases tree.loadedConfig options with
  | error cause => rfl
  | ok loaded => rfl

theorem run_runOptions (tree : FileTree) (options : Options) :
    (Command.runOptions options : StateM FileTree RunResult).run tree =
      match tree.resolve options with
      | .error cause => (Command.failure cause, tree)
      | .ok config =>
          if options.showRules then (Command.showRules config, tree)
          else (Command.editTarget config : StateM FileTree RunResult).run tree := by
  rw [Command.runOptions, run_bind_eq (run_resolveConfig tree options)]
  cases tree.resolve options with
  | error cause => rfl
  | ok config =>
      dsimp only
      split
      next => rfl
      next => rfl

section Loading

variable {tree : FileTree} {options : Options} {config : Config}

/-- A file that was loaded holds a text. -/
theorem configAt_eq_ok_iff {path : RawText} : tree.configAt path = .ok config ↔
    ∃ contents, tree.HoldsText path contents ∧ Config.ofText path contents = .ok config := by
  rw [configAt]
  constructor
  · intro loaded
    cases read : tree.readText path with
    | error cause => simp [read] at loaded
    | ok contents => exact ⟨contents, readText_eq_ok_iff.mp read, by simpa [read] using loaded⟩
  · rintro ⟨contents, holds, taken⟩
    rw [readText_eq_ok_iff.mpr holds]
    exact taken

/-- A configuration is taken from the text of its file, or nothing was named and nothing found. -/
theorem loadedConfig_eq_ok_iff : tree.loadedConfig options = .ok config ↔
    (∃ contents, tree.HoldsText options.configPath contents ∧
      Config.ofText options.configPath contents = .ok config) ∨
    (options.config = none ∧ tree.entryOf? options.configPath = none ∧ config = .default) := by
  rw [loadedConfig, Options.configPath]
  cases named : options.config with
  | some path => simp [configAt_eq_ok_iff]
  | none =>
      simp only [Option.getD_none, pathExists_eq_isSome]
      cases found : tree.entryOf? Command.configFile with
      | none => simp [HoldsText, found, eq_comm]
      | some entry => simp [configAt_eq_ok_iff]

theorem validate_of_loadedConfig (loaded : tree.loadedConfig options = .ok config) :
    config.validate = .ok () := by
  rcases loadedConfig_eq_ok_iff.mp loaded with ⟨_, _, taken⟩ | ⟨_, _, rfl⟩
  · exact Config.validate_of_ofText taken
  · exact Config.validate_default

theorem resolve_eq_ok_iff : tree.resolve options = .ok config ↔
    ∃ loaded, tree.loadedConfig options = .ok loaded ∧
      Command.overrideTarget options loaded = .ok config := by
  rw [resolve]
  cases tree.loadedConfig options with
  | error cause => simp
  | ok loaded => simp

/-- A target that was taken from the command line is never empty, so the configuration stays valid
with it. -/
theorem validate_of_resolve (resolved : tree.resolve options = .ok config) :
    config.validate = .ok () := by
  obtain ⟨loaded, loads, overridden⟩ := resolve_eq_ok_iff.mp resolved
  obtain ⟨given, rfl⟩ := Command.overrideTarget_eq_ok_iff.mp overridden
  obtain ⟨loadedTarget, sound⟩ := Config.validate_eq_ok_iff.mp (validate_of_loadedConfig loads)
  refine Config.validate_eq_ok_iff.mpr ⟨?_, sound⟩
  cases target : options.target with
  | none => exact loadedTarget
  | some path => simpa [target] using given

/-- No command line gives a run an empty target, so only loading can go wrong. -/
theorem resolve_eq_error_iff {arguments : List RawText} {cause : RunError}
    (parsed : Request.ofArguments arguments = .ok (.run options)) :
    tree.resolve options = .error cause ↔
      ∃ loading, tree.loadedConfig options = .error loading ∧ cause = .load loading := by
  have filled := Request.filled_of_ofArguments parsed
  rw [resolve]
  cases tree.loadedConfig options with
  | error loading => simp [eq_comm]
  | ok loaded =>
      have overridden : Command.overrideTarget options loaded =
          .ok { loaded with target := options.target.getD loaded.target } :=
        Command.overrideTarget_eq_ok_iff.mpr ⟨filled.target_ne, rfl⟩
      simp [overridden]

end Loading

/-- The arguments ask for a run with these options, and it goes by this configuration. -/
structure Resolves (tree : FileTree) (arguments : List RawText) (options : Options)
    (config : Config) : Prop where
  parsed : Request.ofArguments arguments = .ok (.run options)
  resolved : tree.resolve options = .ok config

namespace Resolves

variable {tree : FileTree} {arguments : List RawText} {options : Options} {config : Config}

theorem validate (resolves : tree.Resolves arguments options config) :
    config.validate = .ok () :=
  validate_of_resolve resolves.resolved

theorem defects (resolves : tree.Resolves arguments options config) : config.rules.defects = [] :=
  (Config.validate_eq_ok_iff.mp resolves.validate).2

end Resolves

/-- These are all the ways in which a run can end, with its result and the tree that it leaves. -/
inductive Ending (tree : FileTree) (arguments : List RawText) : RunResult → FileTree → Prop where
  | unusable (cause : UsageError) : Request.ofArguments arguments = .error cause →
      Ending tree arguments ⟨Command.exitUsage, "", cause.message ++ "\n"⟩ tree
  | help : Request.ofArguments arguments = .ok .help →
      Ending tree arguments ⟨0, Command.help, ""⟩ tree
  | version : Request.ofArguments arguments = .ok .version →
      Ending tree arguments ⟨0, Command.version, ""⟩ tree
  | notLoaded (options : Options) (cause : LoadError) :
      Request.ofArguments arguments = .ok (.run options) →
      tree.loadedConfig options = .error cause →
      Ending tree arguments (Command.failure (.load cause)) tree
  | shown (options : Options) (config : Config) (target : String) :
      tree.Resolves arguments options config → options.showRules = true →
      config.target = target →
      Ending tree arguments ⟨0, Config.write target config.rules, ""⟩ tree
  | notShown (options : Options) (config : Config) : tree.Resolves arguments options config →
      options.showRules = true → config.target.text? = none →
      Ending tree arguments (Command.failure (.render .targetNotText)) tree
  | missing (options : Options) (config : Config) : tree.Resolves arguments options config →
      options.showRules = false → tree.entryOf? config.target = none →
      Ending tree arguments (Command.outcomeResult config (.notFound config.target)) tree
  | unreadable (options : Options) (config : Config) (cause : FileError) :
      tree.Resolves arguments options config → options.showRules = false →
      tree.Unreadable config.target cause →
      Ending tree arguments
        (Command.failure (.edit (.target (.unreadable config.target cause)))) tree
  | kept (options : Options) (config : Config) (contents : String) :
      tree.Resolves arguments options config → options.showRules = false →
      tree.HoldsText config.target contents → config.rules.outcomeOn contents = .unchanged →
      Ending tree arguments (Command.outcomeResult config .unchanged) tree
  | updated (options : Options) (config : Config) (contents : String) (removed : List Removal)
      (location : Location) (after : FileTree) :
      tree.Resolves arguments options config → options.showRules = false →
      tree.HoldsText config.target contents →
      config.rules.outcomeOn contents = .updated removed →
      tree.locate config.target = .ok location →
      tree.Rewritten after location (config.rules.rewrite contents).toUTF8 →
      Ending tree arguments (Command.outcomeResult config (.updated removed)) after

section Endings

variable {tree : FileTree} {arguments : List RawText}

/-- The request of the arguments decides what a run does. -/
theorem runCommand_eq (tree : FileTree) (arguments : List RawText) :
    tree.runCommand arguments =
      match Request.ofArguments arguments with
      | .error cause => (⟨Command.exitUsage, "", cause.message ++ "\n"⟩, tree)
      | .ok .help => (⟨0, Command.help, ""⟩, tree)
      | .ok .version => (⟨0, Command.version, ""⟩, tree)
      | .ok (.run options) =>
          (Command.runOptions options : StateM FileTree RunResult).run tree := by
  rw [runCommand, Command.run]
  cases Request.ofArguments arguments with
  | error cause => rfl
  | ok request =>
      cases request with
      | help => rfl
      | version => rfl
      | run options => rfl

theorem runCommand_of_notResolved {options : Options} {cause : RunError}
    (parsed : Request.ofArguments arguments = .ok (.run options))
    (resolved : tree.resolve options = .error cause) :
    tree.runCommand arguments = (Command.failure cause, tree) := by
  rw [runCommand_eq, parsed]
  simp only [run_runOptions, resolved]

theorem runCommand_of_resolves {options : Options} {config : Config}
    (resolves : tree.Resolves arguments options config) :
    tree.runCommand arguments =
      if options.showRules then (Command.showRules config, tree)
      else (Command.editTarget config : StateM FileTree RunResult).run tree := by
  rw [runCommand_eq, resolves.parsed]
  simp only [run_runOptions, resolves.resolved]

/-- The rules of a run are sound, so an edit either fails to read its target or has an outcome. -/
theorem ending_of_editTarget {options : Options} {config : Config}
    (resolves : tree.Resolves arguments options config) (hidden : options.showRules = false) :
    Ending tree arguments
      ((Command.editTarget config : StateM FileTree RunResult).run tree).1
      ((Command.editTarget config : StateM FileTree RunResult).run tree).2 := by
  have sound := resolves.defects
  rw [run_editTarget]
  rcases runEdit_cases tree config.target sound with ⟨missing, run⟩ | ⟨cause, unreadable, run⟩ |
    ⟨contents, _, holds, _, _⟩
  · rw [run]
    exact .missing options config resolves hidden missing
  · rw [run]
    exact .unreadable options config cause resolves hidden unreadable
  · by_cases removed : (config.rules.select (Line.split contents)).removed = []
    · rw [runEdit_of_kept sound holds removed]
      exact .kept options config contents resolves hidden holds
        (Rules.outcomeOn_eq_unchanged_iff.mpr removed)
    · obtain ⟨location, after, located, run, rewritten⟩ := runEdit_of_removed sound holds removed
      rw [run]
      rw [← Rules.rewrite_of_removed removed] at rewritten
      exact .updated options config contents _ location after resolves hidden holds
        (Rules.outcomeOn_eq_updated_iff.mpr ⟨removed, rfl⟩) located rewritten

/-- Every run ends in one of these ways. -/
theorem ending_runCommand (tree : FileTree) (arguments : List RawText) :
    Ending tree arguments (tree.runCommand arguments).1 (tree.runCommand arguments).2 := by
  cases parsed : Request.ofArguments arguments with
  | error cause =>
      rw [runCommand_eq, parsed]
      exact .unusable cause parsed
  | ok request =>
      cases request with
      | help =>
          rw [runCommand_eq, parsed]
          exact .help parsed
      | version =>
          rw [runCommand_eq, parsed]
          exact .version parsed
      | run options =>
          cases resolved : tree.resolve options with
          | error cause =>
              rw [runCommand_of_notResolved parsed resolved]
              obtain ⟨loading, loads, rfl⟩ := (resolve_eq_error_iff parsed).mp resolved
              exact .notLoaded options loading parsed loads
          | ok config =>
              have resolves : tree.Resolves arguments options config := ⟨parsed, resolved⟩
              rw [runCommand_of_resolves resolves]
              cases shown : options.showRules with
              | true =>
                  simp only [↓reduceIte, Command.showRules]
                  rw [Config.render_of_valid resolves.validate]
                  cases read : config.target.text? with
                  | none => exact .notShown options config resolves shown read
                  | some target =>
                      exact .shown options config target resolves shown
                        (RawText.text?_eq_some_iff.mp read)
              | false => exact ending_of_editTarget resolves shown

end Endings

end FileTree

end LinePrune
