import LinePrune.Proofs.Edit.Contents

namespace LinePrune

namespace Rules

/-- A rank is hit for one of two reasons, and the text counts only for conditional positions. -/
inductive Hits (rules : Rules) (rank : Nat) (text : String) : Reason → Prop where
  | unconditional :
      rules.unconditional.contains rank = true → Hits rules rank text .unconditional
  | trigger (trigger : String) :
      rules.conditional.contains rank = true → trigger ∈ rules.triggers →
        Text.Holds text trigger → Hits rules rank text .trigger

theorem hits_iff {rules : Rules} (sound : rules.defects = []) {rank : Nat} {text : String}
    {reason : Reason} :
    rules.Hits rank text reason ↔ rules.disposition rank text = .remove reason := by
  constructor
  · intro hits
    cases hits with
    | unconditional contained => exact disposition_of_unconditional sound contained
    | trigger trigger conditional listed held =>
        exact disposition_eq_trigger_iff.mpr ⟨conditional, trigger, listed, held⟩
  · intro decided
    cases reason with
    | unconditional => exact .unconditional (disposition_eq_unconditional_iff.mp decided).2
    | trigger =>
        obtain ⟨conditional, trigger, listed, held⟩ := disposition_eq_trigger_iff.mp decided
        exact .trigger trigger conditional listed held

/-- The list records every line whose rank is hit, with the content that the first run wrote. -/
structure RecordsRanks (rules : Rules) (retained : List Line) (removed : List Removal) :
    Prop where
  ascending : (removed.map Removal.number).Pairwise (· < ·)
  mem_iff : ∀ removal, removal ∈ removed ↔
    ∃ index line reason, retained[index]? = some line ∧
      rules.Hits (index + 1) line.text reason ∧
        removal = ⟨index + 1, reason, line.rendered⟩

/-- The content of a line that is read back is what was rendered. -/
theorem content_renumbered (number : Nat) (line : Line) :
    Line.content ⟨number, line.text, line.terminator.map fun _ => .lf⟩ = line.rendered := by
  cases ending : line.terminator <;>
    simp [Line.content, Line.rendered, ending, Terminator.chars]

theorem recordsRanks_renumbered {rules : Rules} (sound : rules.defects = [])
    {contents : String} {retained : List Line}
    (reread : Line.split contents = Line.renumbered retained) :
    rules.RecordsRanks retained (rules.select (Line.split contents)).removed where
  ascending := rules.ascending_removed (Line.ascending_split contents)
  mem_iff removal := by
    rw [mem_removed_iff, reread]
    constructor
    · intro removed
      obtain ⟨line, member, reason, decided, rfl⟩ := removed
      obtain ⟨index, kept, ranked, rfl⟩ := Line.mem_renumbered_iff.mp member
      exact ⟨index, kept, reason, ranked, (hits_iff sound).mpr decided, by
        rw [content_renumbered]⟩
    · intro recorded
      obtain ⟨index, kept, reason, ranked, hits, rfl⟩ := recorded
      refine ⟨_, Line.mem_renumbered_iff.mpr ⟨index, kept, ranked, rfl⟩, reason,
        (hits_iff sound).mp hits, ?_⟩
      rw [content_renumbered]

end Rules

/-- What an update leaves at its target, given the lines that it retained. -/
structure SecondRunLaw (after : FileTree) (path : RawText) (retained : List Line) : Prop where
  reread : (Target.read path : StateM FileTree (Except TargetError (List Line))).run after =
    (.ok (Line.renumbered retained), after)
  /-- A line without a terminator has no line behind it. -/
  terminated : retained.Pairwise fun line _ => line.terminator.isSome = true
  /-- Another run with sound rules does not fail, and it goes by the ranks of the lines. -/
  again : ∀ rules : Rules, rules.defects = [] → ∃ removed, rules.RecordsRanks retained removed ∧
    (after.runEdit path rules).1 = .ok (if removed = [] then .unchanged else .updated removed)

namespace FileTree

/-- After an update the target is read as the retained lines, numbered anew, and a second run
removes exactly the lines whose ranks are hit. -/
theorem secondRunLaw_of_updated {tree after : FileTree} {path : RawText} {contents : String}
    {rules : Rules} {removed : List Removal} (holds : tree.HoldsText path contents)
    (updated : tree.runEdit path rules = (.ok (.updated removed), after)) :
    SecondRunLaw after path (rules.select (Line.split contents)).retained := by
  obtain ⟨left, run, leftHolds, _⟩ := runEdit_of_text (defects_of_updated updated) holds
  rw [updated, Prod.mk.injEq, Except.ok.injEq] at run
  obtain ⟨outcome, rfl⟩ := run
  obtain ⟨notEmpty, rfl⟩ := Rules.outcomeOn_eq_updated_iff.mp outcome.symm
  have reread : Line.split (rules.rewrite contents) =
      Line.renumbered (rules.select (Line.split contents)).retained :=
    Rules.split_rewrite_of_removed notEmpty
  refine ⟨?_, Line.terminated_of_sublist (rules.retained_sublist _), fun second sound => ?_⟩
  · rw [run_read, readText_eq_ok_iff.mpr leftHolds, ← reread]
  · refine ⟨_, Rules.recordsRanks_renumbered sound reread, ?_⟩
    obtain ⟨last, secondRun, _⟩ := runEdit_of_text sound leftHolds
    rw [secondRun, Rules.outcomeOn]

/-- A file with all three terminators and an open last line loses its first and third line. -/
theorem secondRunLaw_of_mixed_terminators :
    let tree : FileTree := ⟨[(["router.tsx"], .file "a\r\nb\r],\nd".toUTF8)], []⟩
    let after := tree.put ["router.tsx"] (.file "b\nd".toUTF8)
    let rules : Rules := ⟨.ofList [3], ["],"], .ofList [1]⟩
    tree.HoldsText "router.tsx" "a\r\nb\r],\nd" ∧
      tree.runEdit "router.tsx" rules =
        (.ok (.updated [⟨1, .unconditional, "a\r\n"⟩, ⟨3, .trigger, "],\n"⟩]), after) ∧
      SecondRunLaw after "router.tsx" [⟨2, "b", some .cr⟩, ⟨4, "d", none⟩] := by
  intro tree after rules
  have holds : tree.HoldsText "router.tsx" "a\r\nb\r],\nd" := rfl
  have updated : tree.runEdit "router.tsx" rules =
      (.ok (.updated [⟨1, .unconditional, "a\r\n"⟩, ⟨3, .trigger, "],\n"⟩]), after) := rfl
  exact ⟨holds, updated, secondRunLaw_of_updated holds updated⟩

end FileTree

end LinePrune
