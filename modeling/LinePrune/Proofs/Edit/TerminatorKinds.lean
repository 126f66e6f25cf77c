import LinePrune.Proofs.Edit.Contents
import LinePrune.Proofs.Selection.Terminators

namespace LinePrune

namespace Line

/-- This says whether the last line of a text is terminated, if there is a line at all. -/
def closing? (lines : List Line) : Option Bool :=
  lines.getLast?.map fun line => line.terminator.isSome

/-- Two texts have the same lines up to the kinds of their terminators. -/
structure SameTexts (first second : String) : Prop where
  texts : (split first).map text = (split second).map text
  closing : closing? (split first) = closing? (split second)

theorem normalized_eq {first second : Line} (number : first.number = second.number)
    (text : first.text = second.text)
    (ends : first.terminator.isSome = second.terminator.isSome) :
    first.normalized = second.normalized := by
  rw [normalized, normalized, number, text]
  congr 1
  cases firstEnding : first.terminator <;> cases secondEnding : second.terminator <;>
    simp [firstEnding, secondEnding] at ends ⊢

/-- Only the last line can be open, so the texts and the end of that line say it all. -/
theorem map_normalized_eq {first second : List Line}
    (numbers : first.map number = second.map number) (texts : first.map text = second.map text)
    (firstTerminated : first.Pairwise fun line _ => line.terminator.isSome = true)
    (secondTerminated : second.Pairwise fun line _ => line.terminator.isSome = true)
    (closing : closing? first = closing? second) :
    first.map normalized = second.map normalized := by
  induction first generalizing second with
  | nil =>
      rw [List.map_nil, eq_comm, List.map_eq_nil_iff] at texts
      rw [texts]
  | cons line rest ih =>
      cases second with
      | nil => simp at texts
      | cons other others =>
          simp only [List.map_cons, List.cons.injEq] at numbers texts
          cases rest with
          | nil =>
              have last : others = [] := by simpa using texts.2.symm
              subst last
              have ends : line.terminator.isSome = other.terminator.isSome := by
                simpa [closing?] using closing
              simp [normalized_eq numbers.1 texts.1 ends]
          | cons next more =>
              cases others with
              | nil => simp at texts
              | cons otherNext otherMore =>
                  have ends : line.terminator.isSome = other.terminator.isSome := by
                    rw [List.rel_of_pairwise_cons firstTerminated List.mem_cons_self,
                      List.rel_of_pairwise_cons secondTerminated List.mem_cons_self]
                  have below : closing? (next :: more) = closing? (otherNext :: otherMore) := by
                    simpa only [closing?, List.getLast?_cons_cons] using closing
                  rw [List.map_cons, normalized_eq numbers.1 texts.1 ends,
                    ih numbers.2 texts.2 firstTerminated.tail secondTerminated.tail below]
                  rfl

theorem SameTexts.map_normalized {first second : String} (same : SameTexts first second) :
    (split first).map normalized = (split second).map normalized := by
  have lengths : (split first).length = (split second).length := by
    rw [← List.length_map text, same.texts, List.length_map]
  refine map_normalized_eq ?_ same.texts ?_ ?_ same.closing
  · rw [map_number_split, map_number_split, lengths]
  · exact terminated_of_sublist (List.Sublist.refl _)
  · exact terminated_of_sublist (List.Sublist.refl _)

end Line

/-- Two runs on different trees end alike. -/
inductive AlikeRuns (path : RawText) (first second : FileTree) :
    Outcome → FileTree → Outcome → FileTree → Prop where
  /-- Neither run changes any file. -/
  | unchanged : AlikeRuns path first second .unchanged first .unchanged second
  /-- Both runs remove the same numbers and texts for the same reasons and leave one text. -/
  | updated (removed otherRemoved : List Removal) (after otherAfter : FileTree) (left : String) :
      removed.map Removal.withoutTerminator = otherRemoved.map Removal.withoutTerminator →
      after.HoldsText path left → otherAfter.HoldsText path left → '\r' ∉ left.toList →
      AlikeRuns path first second (.updated removed) after (.updated otherRemoved) otherAfter

namespace FileTree

/-- The kinds of terminators have no bearing on a run but for the contents that it reports. -/
theorem alikeRuns_of_sameTexts {first second : FileTree} {path : RawText}
    {contents otherContents : String}
    {rules : Rules} (sound : rules.defects = []) (same : Line.SameTexts contents otherContents)
    (holds : first.HoldsText path contents) (otherHolds : second.HoldsText path otherContents) :
    ∃ outcome after otherOutcome otherAfter,
      first.runEdit path rules = (.ok outcome, after) ∧
      second.runEdit path rules = (.ok otherOutcome, otherAfter) ∧
      AlikeRuns path first second outcome after otherOutcome otherAfter := by
  obtain ⟨after, run, left, untouched⟩ := runEdit_of_text sound holds
  obtain ⟨otherAfter, otherRun, otherLeft, otherUntouched⟩ := runEdit_of_text sound otherHolds
  refine ⟨_, after, _, otherAfter, run, otherRun, ?_⟩
  have plain (contents : String) : ∀ line ∈ Line.split contents, line.IsPlain :=
    fun line member => Line.isPlain_of_mem_split member
  have removals : (rules.select (Line.split contents)).removed.map Removal.withoutTerminator =
      (rules.select (Line.split otherContents)).removed.map Removal.withoutTerminator := by
    rw [Rules.map_withoutTerminator_removed (plain contents), same.map_normalized,
      ← Rules.map_withoutTerminator_removed (plain otherContents)]
  have rendered : Line.render (rules.select (Line.split contents)).retained =
      Line.render (rules.select (Line.split otherContents)).retained := by
    apply Line.render_congr
    rw [← Rules.retained_map_normalized, same.map_normalized, Rules.retained_map_normalized]
  by_cases removed : (rules.select (Line.split contents)).removed = []
  · have otherRemoved : (rules.select (Line.split otherContents)).removed = [] := by
      rwa [removed, List.map_nil, eq_comm, List.map_eq_nil_iff] at removals
    have outcome := Rules.outcomeOn_eq_unchanged_iff.mpr removed
    have otherOutcome := Rules.outcomeOn_eq_unchanged_iff.mpr otherRemoved
    rw [outcome, otherOutcome, untouched outcome, otherUntouched otherOutcome]
    exact .unchanged
  · have otherRemoved : (rules.select (Line.split otherContents)).removed ≠ [] := by
      intro none
      rw [none, List.map_nil, List.map_eq_nil_iff] at removals
      exact removed removals
    rw [Rules.rewrite_of_removed removed] at left
    rw [Rules.rewrite_of_removed otherRemoved, ← rendered] at otherLeft
    rw [Rules.outcomeOn_eq_updated_iff.mpr ⟨removed, rfl⟩,
      Rules.outcomeOn_eq_updated_iff.mpr ⟨otherRemoved, rfl⟩]
    refine .updated _ _ _ _ _ removals left otherLeft (Line.return_not_mem_render ?_)
    exact fun line member => plain contents line ((rules.retained_sublist _).subset member)

/-- One file has all three terminators, a lone carriage return in front of an empty line among
them, and the other one has line feeds only. -/
theorem alikeRuns_of_mixed_terminators :
    let first : FileTree := ⟨[(["router.tsx"], .file "a\r\nb],\r\r\nd".toUTF8)], []⟩
    let second : FileTree := ⟨[(["router.tsx"], .file "a\nb],\n\nd".toUTF8)], []⟩
    let rules : Rules := ⟨.ofList [2], ["],"], .ofList [1]⟩
    rules.defects = [] ∧ Line.SameTexts "a\r\nb],\r\r\nd" "a\nb],\n\nd" ∧
      first.HoldsText "router.tsx" "a\r\nb],\r\r\nd" ∧
      second.HoldsText "router.tsx" "a\nb],\n\nd" ∧
      ∃ outcome after otherOutcome otherAfter,
        first.runEdit "router.tsx" rules = (.ok outcome, after) ∧
        second.runEdit "router.tsx" rules = (.ok otherOutcome, otherAfter) ∧
        AlikeRuns "router.tsx" first second outcome after otherOutcome otherAfter := by
  intro first second rules
  have sound : rules.defects = [] := by decide
  have same : Line.SameTexts "a\r\nb],\r\r\nd" "a\nb],\n\nd" := ⟨by decide, by decide⟩
  have holds : first.HoldsText "router.tsx" "a\r\nb],\r\r\nd" := rfl
  have otherHolds : second.HoldsText "router.tsx" "a\nb],\n\nd" := rfl
  exact ⟨sound, same, holds, otherHolds, alikeRuns_of_sameTexts sound same holds otherHolds⟩

end FileTree

end LinePrune
