import LinePrune.Selection
import Mathlib.Data.List.Nodup
import Mathlib.Order.Interval.Finset.Nat

namespace LinePrune

namespace Rules

/-- The unconditional positions of a file are those that it has lines for. -/
def unconditionalHits (rules : Rules) (lines : List Line) : Finset Nat :=
  {number ∈ Finset.Icc 1 lines.length | rules.unconditional.contains number = true}

/-- A conditional position of a file is hit when the text of its line holds a trigger. -/
def triggerHits (rules : Rules) (lines : List Line) : Finset Nat :=
  {number ∈ Finset.Icc 1 lines.length |
    rules.conditional.contains number = true ∧
      ∃ line ∈ lines, line.number = number ∧
        ∃ trigger ∈ rules.triggers, Text.Holds line.text trigger}

/-- The unconditional positions are looked at before the conditional ones. -/
def unconditionalFirst (rules : Rules) (number : Nat) (text : String) : Disposition :=
  if rules.unconditional.contains number then .remove .unconditional
  else if rules.conditional.contains number then
    if (rules.matchingTrigger text).isSome then .remove .trigger else .keep
  else .keep

end Rules

/-- One pass over the lines puts each of them into the list that the decision names. -/
def Selection.ofDecision (decision : Nat → String → Disposition) : List Line → Selection
  | [] => ⟨[], []⟩
  | line :: rest =>
      let others := ofDecision decision rest
      match decision line.number line.text with
      | .keep => ⟨line :: others.retained, others.removed⟩
      | .remove reason =>
          ⟨others.retained, ⟨line.number, reason, line.content⟩ :: others.removed⟩

namespace Rules

/-- Rules select lines in one pass that follows their decision on each line. -/
theorem select_eq_ofDecision (rules : Rules) (lines : List Line) :
    rules.select lines = Selection.ofDecision rules.disposition lines := by
  induction lines with
  | nil => rfl
  | cons line rest ih =>
      simp only [Selection.ofDecision, ← ih]
      cases decided : rules.disposition line.number line.text with
      | keep => exact select_cons_of_none (removal?_eq_none_iff.mpr decided) rest
      | remove reason =>
          exact select_cons_of_some (removal?_eq_some_iff.mpr ⟨reason, decided, rfl⟩) rest

/-- The order of the two tests plays no part when no position is of both kinds. -/
theorem unconditionalFirst_eq_disposition {rules : Rules} (sound : rules.defects = []) :
    rules.unconditionalFirst = rules.disposition := by
  funext number text
  simp only [unconditionalFirst, disposition]
  by_cases conditional : rules.conditional.contains number = true
  · have apart := unconditional_of_conditional sound conditional
    simp only [conditional, apart, Bool.false_eq_true, ↓reduceIte]
  · simp only [conditional, Bool.false_eq_true, ↓reduceIte]

/-- No line number is hit in both ways. -/
theorem disjoint_hits {rules : Rules} (sound : rules.defects = []) (lines : List Line) :
    Disjoint (rules.unconditionalHits lines) (rules.triggerHits lines) := by
  rw [Finset.disjoint_left]
  intro number unconditional conditional
  simp only [unconditionalHits, triggerHits, Finset.mem_filter] at unconditional conditional
  have apart := unconditional_of_conditional sound conditional.2.1
  rw [unconditional.2] at apart
  contradiction

/-- The line numbers of a file are those from one to the number of its lines. -/
theorem mem_Icc_iff_exists_line {contents : String} {number : Nat} :
    number ∈ Finset.Icc 1 (Line.split contents).length ↔
      ∃ line ∈ Line.split contents, line.number = number := by
  rw [← List.mem_map, Line.map_number_split, List.mem_range'_1, Finset.mem_Icc]
  omega

/-- A line removed for its trigger has its number among the conditional hits. -/
theorem mem_triggerHits_of_trigger {rules : Rules} {contents : String} {line : Line}
    (member : line ∈ Line.split contents)
    (decided : rules.disposition line.number line.text = .remove .trigger) :
    line.number ∈ rules.triggerHits (Line.split contents) := by
  obtain ⟨conditional, held⟩ := disposition_eq_trigger_iff.mp decided
  rw [triggerHits, Finset.mem_filter]
  exact ⟨mem_Icc_iff_exists_line.mpr ⟨line, member, rfl⟩, conditional, line, member, rfl, held⟩

/-- A line removed for its position has its number among the unconditional hits. -/
theorem mem_unconditionalHits_of_unconditional {rules : Rules} {contents : String} {line : Line}
    (member : line ∈ Line.split contents)
    (decided : rules.disposition line.number line.text = .remove .unconditional) :
    line.number ∈ rules.unconditionalHits (Line.split contents) := by
  obtain ⟨_, unconditional⟩ := disposition_eq_unconditional_iff.mp decided
  rw [unconditionalHits, Finset.mem_filter]
  exact ⟨mem_Icc_iff_exists_line.mpr ⟨line, member, rfl⟩, unconditional⟩

/-- Every hit is removed, and nothing else is. -/
theorem number_mem_removed_iff {rules : Rules} (sound : rules.defects = []) (contents : String)
    (number : Nat) :
    number ∈ (rules.select (Line.split contents)).removed.map Removal.number ↔
      number ∈ rules.unconditionalHits (Line.split contents) ∪
        rules.triggerHits (Line.split contents) := by
  rw [Finset.mem_union, List.mem_map]
  constructor
  · intro recorded
    rcases recorded with ⟨removal, removed, rfl⟩
    obtain ⟨line, member, reason, decided, rfl⟩ := mem_removed_iff.mp removed
    cases reason with
    | trigger => exact .inr (mem_triggerHits_of_trigger member decided)
    | unconditional => exact .inl (mem_unconditionalHits_of_unconditional member decided)
  · intro hits
    rcases hits with hit | hit
    · rw [unconditionalHits, Finset.mem_filter] at hit
      obtain ⟨line, member, rfl⟩ := mem_Icc_iff_exists_line.mp hit.1
      have decided : rules.disposition line.number line.text = .remove .unconditional :=
        disposition_of_unconditional sound hit.2
      exact ⟨_, mem_removed_iff.mpr ⟨line, member, _, decided, rfl⟩, rfl⟩
    · rw [triggerHits, Finset.mem_filter] at hit
      obtain ⟨_, conditional, line, member, rfl, held⟩ := hit
      have decided := disposition_eq_trigger_iff.mpr ⟨conditional, held⟩
      exact ⟨_, mem_removed_iff.mpr ⟨line, member, _, decided, rfl⟩, rfl⟩

/-- The reason of a removal tells the two kinds of hits apart. -/
theorem reason_eq_trigger_iff {rules : Rules} (sound : rules.defects = []) {contents : String}
    {removal : Removal} (removed : removal ∈ (rules.select (Line.split contents)).removed) :
    removal.reason = .trigger ↔ removal.number ∈ rules.triggerHits (Line.split contents) := by
  obtain ⟨line, member, reason, decided, rfl⟩ := mem_removed_iff.mp removed
  cases reason with
  | trigger => exact iff_of_true rfl (mem_triggerHits_of_trigger member decided)
  | unconditional =>
      refine iff_of_false (by simp) fun hit => ?_
      exact Finset.disjoint_left.mp (disjoint_hits sound _)
        (mem_unconditionalHits_of_unconditional member decided) hit

/-- Sound rules remove exactly the hits of both kinds, each with its reason, and a pass that looks
at the unconditional positions first selects the same lines. -/
theorem removed_split_eq_hits (rules : Rules) (sound : rules.defects = []) (contents : String) :
    let lines := Line.split contents
    let removed := (rules.select lines).removed
    (removed.map Removal.number).toFinset =
        rules.unconditionalHits lines ∪ rules.triggerHits lines ∧
      (∀ removal ∈ removed,
        removal.reason = .trigger ↔ removal.number ∈ rules.triggerHits lines) ∧
      removed.length = (rules.unconditionalHits lines).card + (rules.triggerHits lines).card ∧
      ∀ others, Selection.ofDecision rules.unconditionalFirst others = rules.select others := by
  intro lines removed
  have numbers : (removed.map Removal.number).toFinset =
      rules.unconditionalHits lines ∪ rules.triggerHits lines := by
    ext number
    rw [List.mem_toFinset]
    exact number_mem_removed_iff sound contents number
  refine ⟨numbers, fun removal => reason_eq_trigger_iff sound, ?_, fun others => ?_⟩
  · have distinct : (removed.map Removal.number).Nodup :=
      (rules.ascending_removed (Line.ascending_split contents)).imp Nat.ne_of_lt
    rw [← Finset.card_union_of_disjoint (disjoint_hits sound lines), ← numbers,
      List.toFinset_card_of_nodup distinct, List.length_map]
  · rw [unconditionalFirst_eq_disposition sound, select_eq_ofDecision]

/-- A file with all three terminators loses one line of each kind and keeps a conditional one. -/
theorem removed_split_eq_hits_of_mixed_terminators :
    let rules : Rules := ⟨.ofList [2, 4], ["],", "\x7d,"], .ofList [3, 9]⟩
    let lines := Line.split "a\r\n  ],\r\r\n]"
    let removed := (rules.select lines).removed
    rules.defects = [] ∧ rules.unconditionalHits lines = {3} ∧ rules.triggerHits lines = {2} ∧
      (removed.map Removal.number).toFinset =
        rules.unconditionalHits lines ∪ rules.triggerHits lines ∧
      (∀ removal ∈ removed,
        removal.reason = .trigger ↔ removal.number ∈ rules.triggerHits lines) ∧
      removed.length = (rules.unconditionalHits lines).card + (rules.triggerHits lines).card ∧
      ∀ others, Selection.ofDecision rules.unconditionalFirst others = rules.select others :=
  ⟨by decide, by decide, by decide, removed_split_eq_hits _ (by decide) _⟩

end Rules

end LinePrune
