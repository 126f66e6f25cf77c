import LinePrune.Proofs.Report.Transcript

namespace LinePrune

theorem feed_not_mem_toDigits (number : Nat) : '\n' ∉ Nat.toDigits 10 number :=
  fun member => (Text.ne_terminator_of_mem_toDigits number _ member).1 rfl

theorem Removal.feed_not_mem_report (removal : Removal) : '\n' ∉ removal.report.toList := by
  have quotation : '\n' ∉ (Text.quoted removal.content).toList :=
    fun member => (Text.ne_terminator_of_mem_quoted _ _ member).1 rfl
  delta report
  simp [feed_not_mem_toDigits, quotation]

namespace Command

/-- The lines of an output stand in front of its line feeds, and what the last of them leaves behind
stands at the end. -/
def outputLines (output : String) : List String :=
  (output.toList.splitOn '\n').map String.ofList

theorem outputLines_of_plain {text : String} (plain : '\n' ∉ text.toList) :
    outputLines text = [text] := by
  simp [outputLines, List.splitOn_eq_singleton plain]

theorem splitOn_append_cons (before behind : List Char) :
    (before ++ '\n' :: behind).splitOn '\n' = before.splitOn '\n' ++ behind.splitOn '\n' :=
  List.splitOnP_append_cons before behind (by simp)

theorem outputLines_linesOutput_cons (line : String) (lines : List String) :
    outputLines (linesOutput (line :: lines)) =
      outputLines line ++ outputLines (linesOutput lines) := by
  simp only [outputLines, toList_linesOutput_cons, splitOn_append_cons, List.map_append]

/-- A line feed ends every line of a report, and nothing is left behind the last of them. -/
theorem outputLines_linesOutput (lines : List String) :
    outputLines (linesOutput lines) = lines.flatMap outputLines ++ [""] := by
  induction lines with
  | nil => rfl
  | cons line rest ih =>
      rw [outputLines_linesOutput_cons, ih, List.flatMap_cons, List.append_assoc]

theorem flatMap_outputLines_report (removed : List Removal) :
    (removed.map Removal.report).flatMap outputLines = removed.map Removal.report := by
  induction removed with
  | nil => rfl
  | cons removal rest ih =>
      rw [List.map_cons, List.flatMap_cons, outputLines_of_plain removal.feed_not_mem_report, ih,
        List.singleton_append]

/-- A text with a line feed takes more than one line. -/
theorem exists_outputLines_eq_singleton_iff {text : String} :
    (∃ line, outputLines text = [line]) ↔ '\n' ∉ text.toList := by
  constructor
  · intro single member
    obtain ⟨line, single⟩ := single
    obtain ⟨before, behind, whole⟩ := List.append_of_mem member
    have parts := congrArg List.length single
    rw [outputLines, whole, splitOn_append_cons, List.length_map, List.length_append,
      List.length_singleton] at parts
    have first : 0 < (before.splitOn '\n').length :=
      List.length_pos_iff.mpr (List.splitOnP_ne_nil _ before)
    have second : 0 < (behind.splitOn '\n').length :=
      List.length_pos_iff.mpr (List.splitOnP_ne_nil _ behind)
    omega
  · intro plain
    exact ⟨text, outputLines_of_plain plain⟩

end Command

namespace Outcome

/-- The name that the last line of a report repeats, if it repeats one. -/
def namedPath (path : RawText) : Outcome → String
  | .notFound missing => missing.display
  | .unchanged => ""
  | .updated _ => Path.shownName path

/-- All that the last line holds besides the name stays on that line. -/
theorem feed_mem_closingLine_iff (path : RawText) (outcome : Outcome) :
    '\n' ∈ (outcome.closingLine path).toList ↔ '\n' ∈ (outcome.namedPath path).toList := by
  cases outcome with
  | notFound missing =>
      show '\n' ∈ ("Error: " ++ missing.display ++ " not found").toList ↔
        '\n' ∈ missing.display.toList
      simp
  | unchanged =>
      show '\n' ∈ "No lines were removed. Check line numbers or content.".toList ↔ _
      simp [namedPath]
  | updated removed =>
      show '\n' ∈ ("Successfully updated " ++ Path.shownName path ++ ", removed " ++
        toString removed.length ++ " lines").toList ↔ '\n' ∈ (Path.shownName path).toList
      simp [feed_not_mem_toDigits]

/-- The output lists the removals line by line, in ascending order, and closes with one more
line. -/
structure ListedIn (outcome : Outcome) (output : String) : Prop where
  counted : outcome.removed.length = outcome.removedCount
  ascending : (outcome.removed.map Removal.number).Pairwise (· < ·)
  lines : ∃ closing,
    Command.outputLines output = outcome.removed.map Removal.report ++ [closing, ""]

theorem length_removed (outcome : Outcome) : outcome.removed.length = outcome.removedCount := by
  cases outcome with
  | notFound missing => rfl
  | unchanged => rfl
  | updated removed => rfl

end Outcome

namespace FileTree

variable {tree after : FileTree} {config : Config} {outcome : Outcome}

theorem ascending_of_run (run : tree.runEdit config.target config.rules = (.ok outcome, after)) :
    (outcome.removed.map Removal.number).Pairwise (· < ·) := by
  rcases outcome_cases run with rfl | ⟨contents, _, rfl, _⟩
  · exact .nil
  · rw [Rules.removed_outcomeOn]
    exact config.rules.ascending_removed (Line.ascending_split contents)

theorem outputLines_of_run (run : tree.runEdit config.target config.rules = (.ok outcome, after)) :
    Command.outputLines (tree.printed config) =
      outcome.removed.map Removal.report ++
        Command.outputLines (outcome.closingLine config.target) ++ [""] := by
  rw [printed_of_run run, Outcome.report_eq, Command.outputLines_linesOutput, List.flatMap_append,
    Command.flatMap_outputLines_report, List.flatMap_singleton]

/-- No contents of a file add a line to the output or take one away from it. The name of the file
does so exactly when it is shown and holds a line feed. -/
theorem outputLines_printed
    (run : tree.runEdit config.target config.rules = (.ok outcome, after)) :
    Command.outputLines (tree.printed config) =
        outcome.removed.map Removal.report ++
          Command.outputLines (outcome.closingLine config.target) ++ [""] ∧
      (outcome.ListedIn (tree.printed config) ↔
        '\n' ∉ (outcome.namedPath config.target).toList) := by
  have whole := outputLines_of_run run
  refine ⟨whole, ?_⟩
  rw [← Outcome.feed_mem_closingLine_iff, ← Command.exists_outputLines_eq_singleton_iff]
  constructor
  · intro listed
    obtain ⟨closing, lines⟩ := listed.lines
    rw [whole, List.append_assoc, List.append_cancel_left_eq] at lines
    exact ⟨closing, List.append_inj_left' (show _ = [closing] ++ [""] from lines) rfl⟩
  · intro single
    obtain ⟨closing, alone⟩ := single
    exact {
      counted := outcome.length_removed
      ascending := ascending_of_run run
      lines := ⟨closing, by rw [whole, alone, List.append_assoc, List.singleton_append]⟩ }

/-- A file that holds the line of a removal does not forge one. -/
theorem outputLines_printed_of_announcing_text :
    let tree : FileTree :=
      ⟨[(["router.tsx"], .file "a\nRemoving line 2: \"b\"\nc".toUTF8)], []⟩
    let rules : Rules := ⟨.empty, [], .ofList [1, 2]⟩
    let config : Config := ⟨"router.tsx", rules⟩
    let outcome : Outcome :=
      .updated [⟨1, .unconditional, "a\n"⟩, ⟨2, .unconditional, "Removing line 2: \"b\"\n"⟩]
    tree.runEdit config.target config.rules =
        (.ok outcome, tree.put ["router.tsx"] (.file "c".toUTF8)) ∧
      outcome.ListedIn (tree.printed config) := by
  intro tree rules config outcome
  have run : tree.runEdit config.target config.rules =
      (.ok outcome, tree.put ["router.tsx"] (.file "c".toUTF8)) :=
    show tree.runEdit "router.tsx" rules = _ from rfl
  exact ⟨run, (outputLines_printed run).2.mpr (by decide)⟩

/-- The name of a file can forge the line of a removal that did not happen. -/
theorem not_listedIn_of_feeds_in_name :
    let name : RawText := "a\nRemoving line 2: \"b\"\nc"
    let tree : FileTree := ⟨[([name], .file "a\nb".toUTF8)], []⟩
    let rules : Rules := ⟨.empty, [], .ofList [1]⟩
    let config : Config := ⟨name, rules⟩
    let outcome : Outcome := .updated [⟨1, .unconditional, "a\n"⟩]
    tree.runEdit config.target config.rules =
        (.ok outcome, tree.put [name] (.file "b".toUTF8)) ∧
      Removal.report ⟨2, .unconditional, "b"⟩ ∈ Command.outputLines (tree.printed config) ∧
      ¬ outcome.ListedIn (tree.printed config) := by
  intro name tree rules config outcome
  have run : tree.runEdit config.target config.rules =
      (.ok outcome, tree.put [name] (.file "b".toUTF8)) :=
    show tree.runEdit "a\nRemoving line 2: \"b\"\nc" rules = _ from rfl
  have closing : Command.outputLines (outcome.closingLine config.target) =
      ["Successfully updated a", Removal.report ⟨2, .unconditional, "b"⟩,
        "c, removed 1 lines"] := by
    decide +kernel
  have whole := outputLines_of_run run
  rw [closing] at whole
  refine ⟨run, by simp [whole], ?_⟩
  intro listed
  obtain ⟨last, lines⟩ := listed.lines
  have count := congrArg List.length (whole.symm.trans lines)
  simp at count

end FileTree

end LinePrune
