/-
This file shows that a run depends on its configuration file and its target only.
-/

import LinePrune.Proofs.Command.ExitCodes
import LinePrune.Proofs.Config.RoundTrip
import LinePrune.Proofs.FileTree.Creation

namespace LinePrune.FileTree

/-- The path of the file that a run with these options edits. There is none when the command line
does not give it and no configuration can be loaded. -/
inductive TargetPath (tree : FileTree) (options : Options) : RawText → Prop where
  | given (path : RawText) : options.target = some path → TargetPath tree options path
  | loaded (config : Config) : options.target = none → tree.loadedConfig options = .ok config →
      TargetPath tree options config.target

/-- Two trees have the same entry at the configuration file of a run and at its target. -/
structure AgreeOn (first second : FileTree) (options : Options) : Prop where
  config : first.entryOf? options.configPath = second.entryOf? options.configPath
  target : ∀ path, first.TargetPath options path → first.entryOf? path = second.entryOf? path

/-- Two runs cannot be told apart by their exit codes, their outputs and what they leave at their
target. Their errors may name different causes. -/
structure RunsAlike (first second : FileTree) (arguments : List RawText) : Prop where
  exitCode : (first.runCommand arguments).1.exitCode = (second.runCommand arguments).1.exitCode
  output : (first.runCommand arguments).1.output = (second.runCommand arguments).1.output
  target : ∀ options path, Request.ofArguments arguments = .ok (.run options) →
    first.TargetPath options path → second.TargetPath options path ∧
      (first.runCommand arguments).2.entryOf? path = (second.runCommand arguments).2.entryOf? path

section Reads

variable {first second : FileTree} {options : Options} {config : Config}

/-- Loading reads one file. -/
theorem loadedConfig_congr
    (same : first.entryOf? options.configPath = second.entryOf? options.configPath) :
    first.loadedConfig options = .ok config ↔ second.loadedConfig options = .ok config := by
  simp only [loadedConfig_eq_ok_iff, HoldsText, same]

theorem resolve_congr
    (same : first.entryOf? options.configPath = second.entryOf? options.configPath) :
    first.resolve options = .ok config ↔ second.resolve options = .ok config := by
  simp only [resolve_eq_ok_iff, loadedConfig_congr same]

theorem TargetPath.congr {path : RawText}
    (same : first.entryOf? options.configPath = second.entryOf? options.configPath)
    (target : first.TargetPath options path) : second.TargetPath options path := by
  cases target with
  | given path given => exact .given path given
  | loaded config omitted loads => exact .loaded config omitted ((loadedConfig_congr same).mp loads)

/-- The target of the effective configuration is the target of the run. -/
theorem targetPath_iff_of_resolve {path : RawText} (resolved : first.resolve options = .ok config) :
    first.TargetPath options path ↔ path = config.target := by
  obtain ⟨loaded, loads, overridden⟩ := resolve_eq_ok_iff.mp resolved
  obtain ⟨_, rfl⟩ := Command.overrideTarget_eq_ok_iff.mp overridden
  constructor
  · intro target
    cases target with
    | given path given => simp [given]
    | loaded other omitted otherLoads =>
        obtain rfl := Except.ok.inj (loads.symm.trans otherLoads)
        simp [omitted]
  · intro same
    subst same
    cases target : options.target with
    | none => exact .loaded loaded target loads
    | some path => exact .given path target

theorem Unreadable.congr {path : RawText} {cause : FileError}
    (same : first.entryOf? path = second.entryOf? path)
    (unreadable : first.Unreadable path cause) : second.Unreadable path cause := by
  cases unreadable with
  | directory found => exact .directory (same ▸ found)
  | notText bytes found invalid => exact .notText bytes (same ▸ found) invalid

/-- An edit reads and writes one file. -/
theorem runEdit_congr {path : RawText} {rules : Rules} (sound : rules.defects = [])
    (same : first.entryOf? path = second.entryOf? path) :
    (first.runEdit path rules).1 = (second.runEdit path rules).1 ∧
      (first.runEdit path rules).2.entryOf? path = (second.runEdit path rules).2.entryOf? path := by
  rcases runEdit_cases first path sound with ⟨missing, run⟩ | ⟨cause, unreadable, run⟩ |
    ⟨contents, after, holds, run, leaves⟩
  · rw [run, runEdit_of_missing sound (same ▸ missing)]
    exact ⟨rfl, same⟩
  · rw [run, runEdit_of_unreadable sound (unreadable.congr same)]
    exact ⟨rfl, same⟩
  · have otherHolds : second.HoldsText path contents := same.symm.trans holds
    obtain ⟨otherAfter, otherRun, otherLeaves, _⟩ := runEdit_of_text sound otherHolds
    rw [run, otherRun]
    exact ⟨rfl, leaves.trans otherLeaves.symm⟩

/-- Runs with one configuration and the same entry at its target have the same result. -/
theorem runCommand_congr {arguments : List RawText}
    (resolves : first.Resolves arguments options config)
    (otherResolves : second.Resolves arguments options config)
    (same : first.entryOf? config.target = second.entryOf? config.target) :
    (first.runCommand arguments).1 = (second.runCommand arguments).1 ∧
      (first.runCommand arguments).2.entryOf? config.target =
        (second.runCommand arguments).2.entryOf? config.target := by
  rw [runCommand_of_resolves resolves, runCommand_of_resolves otherResolves]
  split
  · exact ⟨rfl, same⟩
  · obtain ⟨results, targets⟩ := runEdit_congr resolves.defects same
    rw [run_editTarget, run_editTarget]
    cases run : first.runEdit config.target config.rules with
    | mk result after =>
        cases otherRun : second.runEdit config.target config.rules with
        | mk otherResult otherAfter =>
            rw [run, otherRun] at results targets
            obtain rfl : result = otherResult := results
            cases result with
            | error cause => exact ⟨rfl, targets⟩
            | ok outcome => exact ⟨rfl, targets⟩

theorem exists_error_of_resolve_congr {cause : RunError}
    (same : first.entryOf? options.configPath = second.entryOf? options.configPath)
    (failed : first.resolve options = .error cause) :
    ∃ otherCause, second.resolve options = .error otherCause := by
  cases resolved : second.resolve options with
  | error otherCause => exact ⟨otherCause, rfl⟩
  | ok config =>
      rw [← resolve_congr same, failed] at resolved
      contradiction

/-- Whether a configuration can be loaded is the same on both trees, so both runs fail or both go by
one configuration. -/
theorem runsAlike_of_agreeOn {arguments : List RawText}
    (parsed : Request.ofArguments arguments = .ok (.run options))
    (agree : AgreeOn first second options) : RunsAlike first second arguments := by
  have asked {others : Options} (also : Request.ofArguments arguments = .ok (.run others)) :
      others = options := by
    simpa [parsed, eq_comm] using also
  cases resolved : first.resolve options with
  | error cause =>
      obtain ⟨otherCause, otherResolved⟩ := exists_error_of_resolve_congr agree.config resolved
      have run := runCommand_of_notResolved parsed resolved
      have otherRun := runCommand_of_notResolved parsed otherResolved
      constructor
      · rw [run, otherRun]
        rfl
      · rw [run, otherRun]
        rfl
      · intro others path also target
        obtain rfl := asked also
        rw [run, otherRun]
        exact ⟨target.congr agree.config, agree.target path target⟩
  | ok config =>
      have resolves : first.Resolves arguments options config := ⟨parsed, resolved⟩
      have otherResolves : second.Resolves arguments options config :=
        ⟨parsed, (resolve_congr agree.config).mp resolved⟩
      obtain ⟨results, entries⟩ := runCommand_congr resolves otherResolves
        (agree.target _ ((targetPath_iff_of_resolve resolved).mpr rfl))
      constructor
      · rw [results]
      · rw [results]
      · intro others path also target
        obtain rfl := asked also
        obtain rfl := (targetPath_iff_of_resolve resolved).mp target
        exact ⟨target.congr agree.config, entries⟩

end Reads

section Writes

variable {tree : FileTree} {arguments : List RawText} {location : Location}

/-- A run leaves the tree as it was or writes its target. -/
theorem same_or_rewritten (tree : FileTree) (arguments : List RawText) :
    (tree.runCommand arguments).2 = tree ∨ ∃ options config place bytes,
      tree.Resolves arguments options config ∧ tree.locate config.target = .ok place ∧
        tree.Rewritten (tree.runCommand arguments).2 place bytes := by
  rcases (ending_runCommand tree arguments).same_or_announces with ⟨_, same⟩ |
    ⟨_, _, options, config, place, contents, _, resolves, _, located, _, _, rewritten⟩
  · exact .inl same
  · exact .inr ⟨options, config, place, contents.toUTF8, resolves, located, rewritten⟩

/-- Only the target of a run is written. -/
theorem entryAt?_runCommand
    (elsewhere : ∀ options config, tree.Resolves arguments options config →
      tree.locate config.target ≠ .ok location) :
    (tree.runCommand arguments).2.entryAt? location = tree.entryAt? location := by
  rcases same_or_rewritten tree arguments with same |
    ⟨options, config, place, bytes, resolves, located, rewritten⟩
  · rw [same]
  · have apart : location ≠ place := by
      intro here
      exact elsewhere options config resolves (here ▸ located)
    rw [rewritten.entries, if_neg apart]

/-- No run moves what a path leads to. -/
theorem locate_runCommand (tree : FileTree) (arguments : List RawText) (path : RawText) :
    (tree.runCommand arguments).2.locate path = tree.locate path := by
  rcases same_or_rewritten tree arguments with same | ⟨_, _, _, _, _, _, rewritten⟩
  · rw [same]
  · exact rewritten.locate_eq path

theorem Resolves.unique {options others : Options} {config other : Config}
    (resolves : tree.Resolves arguments options config)
    (also : tree.Resolves arguments others other) : config = other := by
  obtain rfl : options = others := by simpa [resolves.parsed] using also.parsed
  exact Except.ok.inj (resolves.resolved.symm.trans also.resolved)

/-- With the target in view, what lies beside it is not written. -/
theorem entryAt?_runCommand_of_resolves {options : Options} {config : Config}
    (resolves : tree.Resolves arguments options config)
    (beside : tree.locate config.target ≠ .ok location) :
    (tree.runCommand arguments).2.entryAt? location = tree.entryAt? location := by
  apply entryAt?_runCommand
  intro others other also
  rwa [← resolves.unique also]

end Writes

section Disturbances

/-- The file at a location gets other contents or is deleted. -/
inductive Disturbed (before after : FileTree) (location : Location) : Prop where
  | rewritten (bytes : ByteArray) : Rewritten before after location bytes →
      Disturbed before after location
  | deleted (bytes : ByteArray) : Created after before location bytes →
      Disturbed before after location

namespace Disturbed

variable {before after : FileTree} {location reached : Location} {path : RawText}

theorem entryAt?_of_ne (disturbed : Disturbed before after location) {other : Location}
    (apart : other ≠ location) : after.entryAt? other = before.entryAt? other := by
  cases disturbed with
  | rewritten bytes rewritten => rw [rewritten.entries, if_neg apart]
  | deleted bytes created => exact (created.entryAt?_of_ne apart).symm

/-- No path leads to a new location. -/
theorem locate_of_after (disturbed : Disturbed before after location)
    (located : after.locate path = .ok reached) : before.locate path = .ok reached := by
  cases disturbed with
  | rewritten bytes rewritten => rwa [← rewritten.locate_eq]
  | deleted bytes created => exact created.locate_of_ok located

/-- Paths to other locations are left alone. -/
theorem locate_of_ne (disturbed : Disturbed before after location)
    (located : before.locate path = .ok reached) (apart : reached ≠ location) :
    after.locate path = .ok reached := by
  cases disturbed with
  | rewritten bytes rewritten => rwa [rewritten.locate_eq]
  | deleted bytes created => exact created.locate_of_ne located apart

/-- Only paths to the file itself see what happened to it. -/
theorem entryOf?_eq (disturbed : Disturbed before after location)
    (beside : before.locate path ≠ .ok location) :
    after.entryOf? path = before.entryOf? path := by
  apply Option.ext
  intro entry
  rw [entryOf?_eq_some_iff, entryOf?_eq_some_iff]
  constructor
  · intro found
    obtain ⟨reached, located, stands⟩ := found
    have locatedBefore := disturbed.locate_of_after located
    have apart : reached ≠ location := fun here => beside (here ▸ locatedBefore)
    exact ⟨reached, locatedBefore, disturbed.entryAt?_of_ne apart ▸ stands⟩
  · intro found
    obtain ⟨reached, located, stands⟩ := found
    have apart : reached ≠ location := fun here => beside (here ▸ located)
    exact ⟨reached, disturbed.locate_of_ne located apart,
      (disturbed.entryAt?_of_ne apart).trans stands⟩

end Disturbed

/-- A run goes the same way on both trees. Its result is the same down to the errors, it does not
touch the location in question, and it leaves the same everywhere else. -/
structure Undisturbed (tree changed : FileTree) (arguments : List RawText) (location : Location) :
    Prop where
  result : (changed.runCommand arguments).1 = (tree.runCommand arguments).1
  untouched : (tree.runCommand arguments).2.entryAt? location = tree.entryAt? location
  changedUntouched : (changed.runCommand arguments).2.entryAt? location = changed.entryAt? location
  elsewhere : ∀ other, other ≠ location →
    (changed.runCommand arguments).2.entryAt? other = (tree.runCommand arguments).2.entryAt? other

/-- A file that is neither the target of a run nor its configuration file does not matter to it. -/
theorem undisturbed_of_disturbed {tree changed : FileTree} {arguments : List RawText}
    {options : Options} {config : Config} {location : Location}
    (resolves : tree.Resolves arguments options config)
    (notTarget : tree.locate config.target ≠ .ok location)
    (notConfig : tree.locate options.configPath ≠ .ok location)
    (disturbed : Disturbed tree changed location) :
    Undisturbed tree changed arguments location := by
  have changedResolves : changed.Resolves arguments options config :=
    ⟨resolves.parsed, (resolve_congr (disturbed.entryOf?_eq notConfig)).mpr resolves.resolved⟩
  have beside (other : Location) (target : changed.locate config.target = .ok other) :
      tree.locate config.target = .ok other := disturbed.locate_of_after target
  obtain ⟨results, targets⟩ := runCommand_congr changedResolves resolves
    (disturbed.entryOf?_eq notTarget)
  refine ⟨results, entryAt?_runCommand_of_resolves resolves notTarget,
    entryAt?_runCommand_of_resolves changedResolves fun target => notTarget (beside _ target), ?_⟩
  intro other apart
  by_cases target : tree.locate config.target = .ok other
  · have changedTarget := disturbed.locate_of_ne target apart
    simpa only [entryOf?, locate_runCommand, target, changedTarget] using targets
  · rw [entryAt?_runCommand_of_resolves resolves target,
      entryAt?_runCommand_of_resolves changedResolves fun found => target (beside _ found),
      disturbed.entryAt?_of_ne apart]

end Disturbances

/-- The command line gives a target in place of the one in the configuration, which leads to a
location that is neither that of the given target nor that of the configuration file. -/
structure Overridden (tree : FileTree) (arguments : List RawText) (location : Location)
    (options : Options) (path : RawText) (loaded : Config) : Prop where
  parsed : Request.ofArguments arguments = .ok (.run options)
  given : options.target = some path
  loads : tree.loadedConfig options = .ok loaded
  own : tree.locate loaded.target = .ok location
  notGiven : tree.locate path ≠ .ok location
  notConfig : tree.locate options.configPath ≠ .ok location

/-- A run reads its configuration file and its target and writes its target. A file that only the
configuration names may be changed or deleted. -/
theorem runCommand_noninterference (arguments : List RawText) :
    (∀ first second : FileTree,
      (∀ options, Request.ofArguments arguments = .ok (.run options) →
        AgreeOn first second options) → RunsAlike first second arguments) ∧
    (∀ (tree : FileTree) (location : Location),
      (∀ options path, Request.ofArguments arguments = .ok (.run options) →
        tree.TargetPath options path → tree.locate path ≠ .ok location) →
      (tree.runCommand arguments).2.entryAt? location = tree.entryAt? location) ∧
    ∀ (tree changed : FileTree) (location : Location) (options : Options) (path : RawText)
      (loaded : Config), tree.Overridden arguments location options path loaded →
        Disturbed tree changed location → Undisturbed tree changed arguments location := by
  refine ⟨?_, ?_, ?_⟩
  · intro first second agree
    cases parsed : Request.ofArguments arguments with
    | error cause => constructor <;> simp [runCommand_eq, parsed]
    | ok request =>
        cases request with
        | help => constructor <;> simp [runCommand_eq, parsed]
        | version => constructor <;> simp [runCommand_eq, parsed]
        | run options => exact runsAlike_of_agreeOn parsed (agree options parsed)
  · intro tree location beside
    apply entryAt?_runCommand
    intro options config resolves
    exact beside options config.target resolves.parsed
      ((targetPath_iff_of_resolve resolves.resolved).mpr rfl)
  · intro tree changed location options path loaded overridden disturbed
    have filled := Request.filled_of_ofArguments overridden.parsed
    have resolved := resolve_eq_ok_iff.mpr ⟨loaded, overridden.loads,
      Command.overrideTarget_eq_ok_iff.mpr ⟨filled.target_ne, rfl⟩⟩
    refine undisturbed_of_disturbed ⟨overridden.parsed, resolved⟩ ?_ overridden.notConfig disturbed
    simpa [overridden.given] using overridden.notGiven

/-- Two trees share a configuration and a target, in one of which the target of the configuration is
there as well. -/
theorem runCommand_noninterference_of_given_target :
    let own : Config := ⟨"own.tsx", ⟨.ofList [3], ["],"], .ofList [1]⟩⟩
    let arguments : List RawText := ["--target", "given.tsx"]
    let text := Config.write "own.tsx" own.rules
    let options : Options := ⟨some "given.tsx", none, false⟩
    let first : FileTree :=
      ⟨[(["linefix.toml"], .file text.toUTF8), (["given.tsx"], .file "a\nb\n".toUTF8)], []⟩
    let second : FileTree :=
      ⟨[(["work"], .directory), (["linefix.toml", "work"], .file text.toUTF8),
        (["given.tsx", "work"], .file "a\nb\n".toUTF8)], ["work"]⟩
    let full := first.put ["own.tsx"] (.file "c\n".toUTF8)
    (AgreeOn first second options ∧ RunsAlike first second arguments) ∧
      (full.Overridden arguments ["own.tsx"] options "given.tsx" own ∧
        Disturbed full first ["own.tsx"] ∧ Undisturbed full first arguments ["own.tsx"]) ∧
      (full.runCommand arguments).2.entryAt? ["linefix.toml"] =
        full.entryAt? ["linefix.toml"] ∧
      full.runCommand arguments =
        (Command.outcomeResult ⟨"given.tsx", own.rules⟩ (.updated [⟨1, .unconditional, "a\n"⟩]),
          full.put ["given.tsx"] (.file "b\n".toUTF8)) := by
  intro own arguments text options first second full
  have parsed : Request.ofArguments arguments = .ok (.run options) := rfl
  have given {tree : FileTree} {path : RawText} (target : tree.TargetPath options path) :
      path = "given.tsx" := by
    cases target with
    | given path given => exact (Option.some.inj given).symm
    | loaded config omitted => contradiction
  have agree : AgreeOn first second options := by
    refine ⟨show first.entryOf? "linefix.toml" = second.entryOf? "linefix.toml" from rfl, ?_⟩
    intro path target
    rw [given target]
    rfl
  have holds : full.HoldsText "linefix.toml" text := rfl
  have rendered : own.render = .ok text :=
    Config.render_eq_ok_iff.mpr ⟨rfl, "own.tsx", rfl, rfl⟩
  have loads : full.loadedConfig options = .ok own :=
    loadedConfig_eq_ok_iff.mpr (.inl ⟨text, holds, Config.ofText_of_render rendered _⟩)
  have givenAt : full.locate "given.tsx" = .ok ["given.tsx"] := rfl
  have usualAt : full.locate options.configPath = .ok ["linefix.toml"] :=
    show full.locate "linefix.toml" = _ from rfl
  have overridden : full.Overridden arguments ["own.tsx"] options "given.tsx" own := {
    parsed := parsed
    given := rfl
    loads := loads
    own := show full.locate "own.tsx" = _ from rfl
    notGiven := by simp [givenAt]
    notConfig := by simp [usualAt] }
  have created : Created first full ["own.tsx"] "c\n".toUTF8 :=
    ⟨rfl, rfl, entryAt?_put_file rfl (by decide) _⟩
  have disturbed : Disturbed full first ["own.tsx"] := .deleted _ created
  have resolves : full.Resolves arguments options ⟨"given.tsx", own.rules⟩ :=
    ⟨parsed, resolve_eq_ok_iff.mpr ⟨own, loads, rfl⟩⟩
  obtain ⟨alike, confined, undisturbed⟩ := runCommand_noninterference arguments
  refine ⟨⟨agree, alike first second fun others also => ?_⟩,
    ⟨overridden, disturbed, undisturbed _ _ _ _ _ _ overridden disturbed⟩,
    confined _ _ fun others path also target => ?_, ?_⟩
  · obtain rfl : options = others := by simpa [parsed] using also
    exact agree
  · obtain rfl : options = others := by simpa [parsed] using also
    simp [given target, givenAt]
  · have run : full.runEdit "given.tsx" own.rules = (.ok (.updated [⟨1, .unconditional, "a\n"⟩]),
        full.put ["given.tsx"] (.file "b\n".toUTF8)) := rfl
    rw [runCommand_of_resolves resolves, if_neg Bool.false_ne_true, run_editTarget, run]

end LinePrune.FileTree
