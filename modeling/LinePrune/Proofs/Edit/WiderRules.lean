import LinePrune.Proofs.Edit.Contents

namespace LinePrune

/-- A position of the smaller set has its line number in the larger one. -/
theorem Positions.contains_of_subset {first second : Positions}
    (within : first.members ⊆ second.members) {number : Nat}
    (contained : first.contains number = true) : second.contains number = true := by
  obtain ⟨position, member, same⟩ := contains_iff.mp contained
  exact contains_iff.mpr ⟨position, within member, same⟩

namespace Rules

/-- Wider rules have the positions of both kinds and the triggers of the narrower ones. They may
have others besides, and the triggers in another order. -/
structure Within (rules wider : Rules) : Prop where
  conditional : rules.conditional.members ⊆ wider.conditional.members
  triggers : rules.triggers ⊆ wider.triggers
  unconditional : rules.unconditional.members ⊆ wider.unconditional.members

variable {rules wider : Rules}

/-- Wider rules could keep what narrower ones remove only by making an unconditional position a
conditional one, and sound rules have no position of both kinds. -/
theorem Within.disposition (within : rules.Within wider) (sound : wider.defects = [])
    {number : Nat} {text : String} {reason : Reason}
    (decided : rules.disposition number text = .remove reason) :
    wider.disposition number text = .remove reason := by
  cases reason with
  | trigger =>
      obtain ⟨conditional, trigger, listed, held⟩ := disposition_eq_trigger_iff.mp decided
      exact disposition_eq_trigger_iff.mpr
        ⟨Positions.contains_of_subset within.conditional conditional, trigger,
          within.triggers listed, held⟩
  | unconditional =>
      obtain ⟨_, unconditional⟩ := disposition_eq_unconditional_iff.mp decided
      exact disposition_of_unconditional sound
        (Positions.contains_of_subset within.unconditional unconditional)

/-- A line that narrower rules remove leaves the same record under wider ones. -/
theorem Within.removal? (within : rules.Within wider) (sound : wider.defects = [])
    {line : Line} {removal : Removal} (dropped : rules.removal? line = some removal) :
    wider.removal? line = some removal := by
  obtain ⟨reason, decided, rfl⟩ := removal?_eq_some_iff.mp dropped
  exact removal?_eq_some_iff.mpr ⟨reason, within.disposition sound decided, rfl⟩

/-- The induction is on the lines. Only a line that the narrower rules keep can go either way. -/
theorem Within.removed_sublist (within : rules.Within wider) (sound : wider.defects = [])
    (lines : List Line) : (rules.select lines).removed.Sublist (wider.select lines).removed := by
  induction lines with
  | nil => exact .slnil
  | cons line rest ih =>
      cases dropped : rules.removal? line with
      | some removal =>
          rw [select_cons_of_some dropped, select_cons_of_some (within.removal? sound dropped)]
          exact ih.cons_cons removal
      | none =>
          rw [select_cons_of_none dropped]
          cases droppedByWider : wider.removal? line with
          | some removal =>
              rw [select_cons_of_some droppedByWider]
              exact ih.cons removal
          | none =>
              rw [select_cons_of_none droppedByWider]
              exact ih

/-- What wider rules retain, narrower ones retain as well. -/
theorem Within.retained_sublist (within : rules.Within wider) (sound : wider.defects = [])
    (lines : List Line) :
    (wider.select lines).retained.Sublist (rules.select lines).retained := by
  apply List.monotone_filter_right
  intro line kept
  rw [Option.isNone_iff_eq_none] at kept ⊢
  by_contra dropped
  obtain ⟨removal, dropped⟩ := Option.ne_none_iff_exists'.mp dropped
  rw [within.removal? sound dropped] at kept
  contradiction

end Rules

namespace FileTree

/-- A run that updates its target under narrower rules updates it under wider ones. -/
theorem exists_updated_of_within {tree after : FileTree} {path : RawText} {rules wider : Rules}
    {removed : List Removal} (within : rules.Within wider) (sound : wider.defects = [])
    (updated : tree.runEdit path rules = (.ok (.updated removed), after)) :
    ∃ more left, tree.runEdit path wider = (.ok (.updated more), left) ∧
      removed.Sublist more := by
  rcases outcome_cases updated with missing | ⟨contents, holds, outcome, _⟩
  · contradiction
  · obtain ⟨notEmpty, rfl⟩ := Rules.outcomeOn_eq_updated_iff.mp outcome.symm
    have grown := within.removed_sublist sound (Line.split contents)
    obtain ⟨left, run, _⟩ := runEdit_of_text sound holds
    refine ⟨_, left, ?_, grown⟩
    rw [run, Rules.outcomeOn_eq_updated_iff.mpr ⟨?_, rfl⟩]
    intro nothing
    rw [nothing, List.sublist_nil] at grown
    exact notEmpty grown

end FileTree

/-- What wider rules make of any lines and of any target, compared with the narrower ones. -/
structure Rules.WideningLaw (rules wider : Rules) : Prop where
  /-- A record tells the number, the reason and the content of its line. -/
  removed : ∀ lines, (rules.select lines).removed.Sublist (wider.select lines).removed
  retained : ∀ lines, (wider.select lines).retained.Sublist (rules.select lines).retained
  updated : ∀ (tree after : FileTree) (path : RawText) (removed : List Removal),
    tree.runEdit path rules = (.ok (.updated removed), after) →
      ∃ more left, tree.runEdit path wider = (.ok (.updated more), left) ∧ removed.Sublist more

namespace Rules

/-- Rules that grow remove more, as long as the wider ones are sound. -/
theorem wideningLaw_of_within {rules wider : Rules} (within : rules.Within wider)
    (sound : wider.defects = []) : WideningLaw rules wider where
  removed := within.removed_sublist sound
  retained := within.retained_sublist sound
  updated _ _ _ _ updated := FileTree.exists_updated_of_within within sound updated

/-- The wider rules have more of everything, and the triggers in another order. -/
theorem wideningLaw_of_reordered_triggers :
    let rules : Rules := ⟨.ofList [2], ["],", "\x7d,"], .ofList [4]⟩
    let wider : Rules := ⟨.ofList [2, 3], ["\x7d,", ";", "],"], .ofList [1, 4]⟩
    let lines := Line.split "a\r\n],\rb;\nc\nd"
    rules.Within wider ∧ wider.defects = [] ∧ WideningLaw rules wider ∧
      (rules.select lines).removed.map Removal.number = [2, 4] ∧
      (wider.select lines).removed.map Removal.number = [1, 2, 3, 4] := by
  intro rules wider lines
  have within : rules.Within wider := ⟨by decide, by decide, by decide⟩
  have sound : wider.defects = [] := by decide
  exact ⟨within, sound, wideningLaw_of_within within sound, by decide, by decide⟩

/-- Wider rules with a position of both kinds may keep what narrower ones remove. -/
example :
    let rules : Rules := ⟨.empty, ["],"], .ofList [1]⟩
    let wider : Rules := ⟨.ofList [1], ["],"], .ofList [1]⟩
    rules.disposition 1 "a" = .remove .unconditional ∧ wider.disposition 1 "a" = .keep := by
  decide

end Rules

end LinePrune
