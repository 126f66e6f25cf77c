import LinePrune.Proofs.Command.Run

namespace LinePrune

/-- The output begins with a removed line. -/
def RunResult.Announces (result : RunResult) : Prop :=
  ∃ rest, result.output = "Removing line " ++ rest

/-- What holds of one run of the command, whatever its arguments and the tree are. -/
structure CommandLaw (tree : FileTree) (arguments : List RawText) (result : RunResult)
    (after : FileTree) : Prop where
  codes : result.exitCode ∈ [0, 1, 2, 3]
  silent : result.output = "" ↔ result.exitCode = 1 ∨ result.exitCode = 2
  failed : result.exitCode ≠ 0 → after = tree
  /-- Help, the version and the rules are shown without an edit. -/
  shows : (Request.ofArguments arguments = .ok .help ∨
      Request.ofArguments arguments = .ok .version ∨
      ∃ options, Request.ofArguments arguments = .ok (.run options) ∧ options.showRules = true) →
    after = tree
  missing : result.exitCode = 3 ↔ ∃ options config, tree.Resolves arguments options config ∧
    options.showRules = false ∧ tree.pathExists config.target = false
  /-- The output announces removed lines exactly when some file is not what it was. -/
  changes : (∃ location, after.entryAt? location ≠ tree.entryAt? location) ↔ result.Announces
  untouched : ¬ result.Announces → after = tree
  /-- What changes is the contents of the target, and nothing else does. -/
  confined : result.Announces → ∃ options config location contents,
    tree.Resolves arguments options config ∧ options.showRules = false ∧
      tree.locate config.target = .ok location ∧
      tree.Rewritten after location (String.toUTF8 contents)

namespace RunResult

theorem not_announces_of_head? {result : RunResult}
    (other : result.output.toList.head? ≠ some 'R') : ¬ result.Announces := by
  rintro ⟨rest, output⟩
  rw [output] at other
  simp at other

end RunResult

namespace Command

theorem exists_append_eq_help :
    ∃ rest, help = "Remove dangling lines at fixed positions from a source file\n" ++ rest := by
  delta help
  simp only [String.append_assoc, -String.reduceAppend]
  exact ⟨_, rfl⟩

/-- The help begins like a removed line and departs from it within the first word. -/
theorem not_announces_help : ¬ RunResult.Announces ⟨0, help, ""⟩ := by
  rintro ⟨rest, output⟩
  obtain ⟨others, text⟩ := exists_append_eq_help
  have chars := congrArg (fun text => text.toList.take 6) (text.symm.trans output)
  simp at chars

theorem not_announces_failure (error : RunError) : ¬ (failure error).Announces :=
  RunResult.not_announces_of_head? (by simp)

theorem exists_append_eq_report (removal : Removal) :
    ∃ rest, removal.report = "Removing line " ++ rest := by
  delta Removal.report
  simp only [String.append_assoc]
  exact ⟨_, rfl⟩

theorem announces_updated (config : Config) {removed : List Removal} (some : removed ≠ []) :
    (outcomeResult config (.updated removed)).Announces := by
  cases removed with
  | nil => contradiction
  | cons removal rest =>
      obtain ⟨others, text⟩ := exists_append_eq_report removal
      simp only [RunResult.Announces, output_outcomeResult, Outcome.report, linesOutput,
        List.map_cons, List.cons_append, String.join_cons, text, String.append_assoc]
      exact ⟨_, rfl⟩

end Command

namespace FileTree

variable {tree after : FileTree} {arguments : List RawText} {result : RunResult}

/-- A rewritten text differs from the one before, since it has fewer lines. -/
theorem rewrite_ne {rules : Rules} {contents : String} {removed : List Removal}
    (updated : rules.outcomeOn contents = .updated removed) :
    rules.rewrite contents ≠ contents := by
  intro same
  obtain ⟨some, rfl⟩ := Rules.outcomeOn_eq_updated_iff.mp updated
  have fewer := Rules.length_rewrite_lt some
  rw [same] at fewer
  exact Nat.lt_irrefl _ fewer

theorem Rewritten.differs {location : Location} {contents old : String}
    (rewritten : tree.Rewritten after location contents.toUTF8)
    (stood : tree.entryAt? location = some (.file old.toUTF8)) (different : contents ≠ old) :
    after.entryAt? location ≠ tree.entryAt? location := by
  rw [rewritten.entries, if_pos rfl, stood]
  intro same
  simp only [Option.some.injEq, Entry.file.injEq, String.toUTF8_eq_toByteArray] at same
  exact different (String.toByteArray_inj.mp same)

namespace Ending

theorem output_eq_empty_iff (ending : Ending tree arguments result after) :
    result.output = "" ↔ result.exitCode = 1 ∨ result.exitCode = 2 := by
  cases ending with
  | unusable cause => simp [Command.exitUsage]
  | help =>
      obtain ⟨rest, text⟩ := Command.exists_append_eq_help
      simp [text]
  | version => simp [Command.version]
  | notLoaded options cause => simp
  | unreadable options config cause => simp
  | notShown options config => simp
  | shown options config => simp [Config.write, Toml.writeAssignment]
  | missing options config => simp [Outcome.exitCode, Outcome.report, Command.linesOutput]
  | kept options config contents => simp [Outcome.exitCode, Outcome.report, Command.linesOutput]
  | updated options config contents removed location after =>
      simp [Outcome.exitCode, Outcome.report, Command.linesOutput]

theorem exitCode_mem (ending : Ending tree arguments result after) :
    result.exitCode ∈ [0, 1, 2, 3] := by
  cases ending with
  | unusable cause => simp [Command.exitUsage]
  | help => simp
  | version => simp
  | notLoaded options cause => simp
  | unreadable options config cause => simp
  | notShown options config => simp
  | shown options config => simp
  | missing options config => simp [Outcome.exitCode]
  | kept options config contents => simp [Outcome.exitCode]
  | updated options config contents removed location after => simp [Outcome.exitCode]

/-- A run either changes nothing, or it says so and changes the contents of its target. -/
theorem same_or_announces (ending : Ending tree arguments result after) :
    (¬ result.Announces ∧ after = tree) ∨
      (result.Announces ∧ result.exitCode = 0 ∧ ∃ options config location contents old,
        tree.Resolves arguments options config ∧ options.showRules = false ∧
          tree.locate config.target = .ok location ∧
          tree.entryAt? location = some (.file (String.toUTF8 old)) ∧ contents ≠ old ∧
          tree.Rewritten after location (String.toUTF8 contents)) := by
  cases ending with
  | unusable cause => exact .inl ⟨RunResult.not_announces_of_head? (by simp), rfl⟩
  | help => exact .inl ⟨Command.not_announces_help, rfl⟩
  | version => exact .inl ⟨RunResult.not_announces_of_head? (by simp [Command.version]), rfl⟩
  | notLoaded options cause => exact .inl ⟨Command.not_announces_failure _, rfl⟩
  | unreadable options config cause => exact .inl ⟨Command.not_announces_failure _, rfl⟩
  | notShown options config => exact .inl ⟨Command.not_announces_failure _, rfl⟩
  | shown options config =>
      refine .inl ⟨RunResult.not_announces_of_head? ?_, rfl⟩
      simp [Config.write, Toml.writeAssignment]
  | missing options config =>
      refine .inl ⟨RunResult.not_announces_of_head? ?_, rfl⟩
      simp [Outcome.report, Command.linesOutput]
  | kept options config contents =>
      refine .inl ⟨RunResult.not_announces_of_head? ?_, rfl⟩
      simp [Outcome.report, Command.linesOutput]
  | updated options config contents removed location after resolves hidden holds outcome located
      rewritten =>
      obtain ⟨other, otherLocated, stood⟩ := entryOf?_eq_some_iff.mp holds
      obtain rfl := Except.ok.inj (otherLocated.symm.trans located)
      exact .inr ⟨Command.announces_updated config (Rules.outcomeOn_eq_updated_iff.mp outcome).1,
        rfl, options, config, other, _, contents, resolves, hidden, located, stood,
        rewrite_ne outcome, rewritten⟩

/-- Of all endings, a missing target alone has the exit code three. -/
theorem missing_of_exitCode (ending : Ending tree arguments result after)
    (code : result.exitCode = 3) : ∃ options config, tree.Resolves arguments options config ∧
      options.showRules = false ∧ tree.pathExists config.target = false := by
  cases ending with
  | missing options config resolves hidden missing =>
      exact ⟨options, config, resolves, hidden, by rw [pathExists_eq_isSome, missing]; rfl⟩
  | unusable cause => simp [Command.exitUsage] at code
  | help => simp at code
  | version => simp at code
  | notLoaded options cause => simp at code
  | unreadable options config cause => simp at code
  | notShown options config => simp at code
  | shown options config => simp at code
  | kept options config contents => simp [Outcome.exitCode] at code
  | updated options config contents removed location after => simp [Outcome.exitCode] at code

end Ending

theorem exitCode_of_missing {options : Options} {config : Config}
    (resolves : tree.Resolves arguments options config) (hidden : options.showRules = false)
    (missing : tree.pathExists config.target = false) :
    (tree.runCommand arguments).1.exitCode = 3 := by
  rw [pathExists_eq_isSome, Option.isSome_eq_false_iff, Option.isNone_iff_eq_none] at missing
  rw [runCommand_of_resolves resolves, hidden, if_neg Bool.false_ne_true, run_editTarget,
    runEdit_of_missing resolves.defects missing]
  rfl

/-- Every run of the command on every tree follows the law. -/
theorem commandLaw_runCommand (tree : FileTree) (arguments : List RawText) :
    CommandLaw tree arguments (tree.runCommand arguments).1 (tree.runCommand arguments).2 := by
  have ending := ending_runCommand tree arguments
  have silent := ending.output_eq_empty_iff
  have missing : (tree.runCommand arguments).1.exitCode = 3 ↔
      ∃ options config, tree.Resolves arguments options config ∧ options.showRules = false ∧
        tree.pathExists config.target = false :=
    ⟨ending.missing_of_exitCode, fun ⟨_, _, resolves, hidden, missing⟩ =>
      exitCode_of_missing resolves hidden missing⟩
  rcases ending.same_or_announces with ⟨quiet, same⟩ | ⟨announces, success, options, config,
    location, contents, old, resolves, hidden, located, stood, different, rewritten⟩
  · exact {
      codes := ending.exitCode_mem
      silent := silent
      failed := fun _ => same
      shows := fun _ => same
      missing := missing
      changes := by simp [quiet, same]
      untouched := fun _ => same
      confined := fun announces => absurd announces quiet }
  · exact {
      codes := ending.exitCode_mem
      silent := silent
      failed := fun failed => absurd success failed
      shows := by simp [resolves.parsed, hidden]
      missing := missing
      changes := iff_of_true ⟨location, rewritten.differs stood different⟩ announces
      untouched := fun quiet => absurd announces quiet
      confined := fun _ =>
        ⟨options, config, location, contents, resolves, hidden, located, rewritten⟩ }

end FileTree

end LinePrune
