import LinePrune.Proofs.Edit.RepeatedRuns
import LinePrune.Proofs.Selection.Terminators

namespace LinePrune

/-- The members that pass a test on their numbers. -/
def Positions.restricted (positions : Positions) (passes : Nat → Bool) : Positions where
  members := positions.members.filter fun position => passes position.toNat
  ascending := positions.ascending.filter _

theorem Positions.contains_restricted (positions : Positions) (passes : Nat → Bool)
    (number : Nat) :
    (positions.restricted passes).contains number =
      (positions.contains number && passes number) := by
  rw [Bool.eq_iff_iff, Bool.and_eq_true, contains_iff, contains_iff]
  simp only [restricted, List.mem_filter]
  constructor
  · rintro ⟨position, ⟨member, passed⟩, rfl⟩
    exact ⟨⟨position, member, rfl⟩, passed⟩
  · rintro ⟨⟨position, member, rfl⟩, passed⟩
    exact ⟨position, ⟨member, passed⟩, rfl⟩

namespace Rules

/-- The rules at the positions that pass a test. All triggers are kept. -/
def restricted (rules : Rules) (passes : Nat → Bool) : Rules :=
  { rules with
    conditional := rules.conditional.restricted passes
    unconditional := rules.unconditional.restricted passes }

def above (rules : Rules) (threshold : Nat) : Rules :=
  rules.restricted fun number => threshold < number

def upTo (rules : Rules) (threshold : Nat) : Rules :=
  rules.restricted fun number => number ≤ threshold

section Restricted

variable {rules : Rules} {passes : Nat → Bool}

/-- Sound rules stay sound when positions are left out. -/
theorem defects_restricted (sound : rules.defects = []) (passes : Nat → Bool) :
    (rules.restricted passes).defects = [] := by
  obtain ⟨conditional, unconditional, apart, triggers, needed⟩ := defects_eq_nil_iff.mp sound
  rw [Positions.overlap_eq_nil_iff] at apart
  refine defects_eq_nil_iff.mpr ⟨?_, ?_, ?_, triggers, ?_⟩
  · simp [restricted, Positions.contains_restricted, conditional]
  · simp [restricted, Positions.contains_restricted, unconditional]
  · rw [Positions.overlap_eq_nil_iff]
    intro number contained
    simp only [restricted, Positions.contains_restricted, Bool.and_eq_true] at contained ⊢
    rw [apart number contained.1, Bool.false_and]
  · intro some
    refine needed fun none => some ?_
    simp [restricted, Positions.restricted, none]

theorem disposition_restricted (rules : Rules) (passes : Nat → Bool) (number : Nat)
    (text : String) :
    (rules.restricted passes).disposition number text =
      if passes number then rules.disposition number text else .keep := by
  cases passed : passes number <;>
    simp [disposition, restricted, Positions.contains_restricted, matchingTrigger, passed]

theorem select_append (rules : Rules) (first second : List Line) :
    rules.select (first ++ second) =
      ⟨(rules.select first).retained ++ (rules.select second).retained,
        (rules.select first).removed ++ (rules.select second).removed⟩ := by
  simp [select]

theorem removal?_restricted (rules : Rules) (passes : Nat → Bool) (line : Line) :
    (rules.restricted passes).removal? line =
      if passes line.number then rules.removal? line else none := by
  rw [removal?, disposition_restricted]
  cases passes line.number <;> rfl

theorem select_restricted_of_passed {lines : List Line}
    (passed : ∀ line ∈ lines, passes line.number = true) :
    (rules.restricted passes).select lines = rules.select lines := by
  have alike : ∀ line ∈ lines, (rules.restricted passes).removal? line = rules.removal? line := by
    intro line member
    rw [removal?_restricted, passed line member, if_pos rfl]
  rw [select, select, List.filterMap_congr alike]
  congr 1
  exact List.filter_congr fun line member => by rw [alike line member]

theorem select_restricted_of_failed {lines : List Line}
    (failed : ∀ line ∈ lines, passes line.number = false) :
    (rules.restricted passes).select lines = ⟨lines, []⟩ := by
  have kept : ∀ line ∈ lines, (rules.restricted passes).removal? line = none := by
    intro line member
    rw [removal?_restricted, failed line member, if_neg Bool.false_ne_true]
  rw [select, List.filterMap_eq_nil_iff.mpr kept, List.filter_eq_self.mpr]
  exact fun line member => Option.isNone_iff_eq_none.mpr (kept line member)

end Restricted

section Parts

variable {rules : Rules} {threshold : Nat} {contents : String}

theorem select_above_append {low high : List Line} (below : ∀ line ∈ low, line.number ≤ threshold)
    (beyond : ∀ line ∈ high, threshold < line.number) :
    (rules.above threshold).select (low ++ high) =
      ⟨low ++ (rules.select high).retained, (rules.select high).removed⟩ := by
  rw [above, select_append, select_restricted_of_failed, select_restricted_of_passed]
  · rfl
  · exact fun line member => decide_eq_true (beyond line member)
  · exact fun line member => decide_eq_false (Nat.not_lt.mpr (below line member))

theorem select_upTo_append {low high : List Line} (below : ∀ line ∈ low, line.number ≤ threshold)
    (beyond : ∀ line ∈ high, threshold < line.number) :
    (rules.upTo threshold).select (low ++ high) =
      ⟨(rules.select low).retained ++ high, (rules.select low).removed⟩ := by
  rw [upTo, select_append, select_restricted_of_passed, select_restricted_of_failed,
    List.append_nil]
  · exact fun line member => decide_eq_false (Nat.not_le.mpr (beyond line member))
  · exact fun line member => decide_eq_true (below line member)

theorem retained_of_kept {lines : List Line} (kept : (rules.select lines).removed = []) :
    (rules.select lines).retained = lines := by
  rw [retained_eq_filter, List.filter_eq_self]
  exact fun line member => decide_eq_true (removed_eq_nil_iff.mp kept line member)

/-- The lines behind the first ones of a text have larger numbers. -/
theorem lt_number_of_mem_drop {line : Line}
    (member : line ∈ (Line.split contents).drop threshold) : threshold < line.number := by
  have numbered : line.number ∈ ((Line.split contents).drop threshold).map Line.number :=
    List.mem_map_of_mem member
  rw [List.map_drop, Line.map_number_split, List.drop_range', List.mem_range'_1] at numbered
  omega

/-- The run above a threshold goes by the lines behind it alone. -/
theorem select_above_split (rules : Rules) (threshold : Nat) (contents : String) :
    (rules.above threshold).select (Line.split contents) =
      ⟨(Line.split contents).take threshold ++
          (rules.select ((Line.split contents).drop threshold)).retained,
        (rules.select ((Line.split contents).drop threshold)).removed⟩ := by
  conv_lhs => rw [← List.take_append_drop threshold (Line.split contents)]
  exact select_above_append (fun _ => number_le_of_mem_take) fun _ => lt_number_of_mem_drop

end Parts

end Rules

namespace Line

theorem normalized_comp_normalized : normalized ∘ normalized = normalized := by
  funext line
  rw [Function.comp_apply, normalized, normalized, Option.map_map]
  rfl

theorem renumbered_append (first second : List Line) :
    renumbered (first ++ second) = renumbered first ++ second.mapIdx fun index line =>
      ⟨index + first.length + 1, line.text, line.terminator.map fun _ => .lf⟩ := by
  rw [renumbered, List.mapIdx_append]
  rfl

/-- Lines that carry their ranks already are normalized by renumbering. -/
theorem renumbered_of_numbered {lines : List Line}
    (numbered : lines.map number = List.range' 1 lines.length) :
    renumbered lines = lines.map normalized := by
  apply List.ext_getElem?
  intro index
  have ranked := congrArg (fun numbers => numbers[index]?) numbered
  simp only [List.getElem?_map] at ranked
  rw [renumbered, List.getElem?_mapIdx, List.getElem?_map]
  cases found : lines[index]? with
  | none => rfl
  | some line =>
      have inside : index < lines.length := (List.getElem?_eq_some_iff.mp found).1
      rw [found, Option.map_some, List.getElem?_range' inside, Option.some.injEq] at ranked
      rw [Option.map_some, Option.map_some, normalized, ranked, Nat.one_mul, Nat.add_comm 1]

/-- What is rendered of lines does not depend on their numbers. -/
theorem render_mapIdx {place : Nat → Line → Line}
    (same : ∀ index line, (place index line).rendered = line.rendered) (lines : List Line) :
    render (lines.mapIdx place) = render lines := by
  induction lines generalizing place with
  | nil => rfl
  | cons line rest ih =>
      have below : render (rest.mapIdx fun index => place (index + 1)) = render rest :=
        ih fun index => same (index + 1)
      rw [List.mapIdx_cons, ← List.singleton_append, render_append, below,
        ← List.singleton_append, render_append]
      simp [render, same]

end Line

namespace Rules

section Runs

variable {rules : Rules} {threshold : Nat} {contents : String}

/-- Up to the threshold there are the lines as they were, but for their terminators, and behind
it stands what is rendered like the retained ones of the others. -/
structure KeepsLower (rules : Rules) (threshold : Nat) (lines lower upper : List Line) : Prop where
  below : ∀ line ∈ lower, line.number ≤ threshold
  beyond : ∀ line ∈ upper, threshold < line.number
  normalized : lower.map Line.normalized = (lines.take threshold).map Line.normalized
  rendered : Line.render upper = Line.render (rules.select (lines.drop threshold)).retained

theorem exists_keepsLower (rules : Rules) (threshold : Nat) (contents : String) :
    ∃ lower upper, Line.split ((rules.above threshold).rewrite contents) = lower ++ upper ∧
      rules.KeepsLower threshold (Line.split contents) lower upper := by
  have selection := rules.select_above_split threshold contents
  by_cases kept : ((rules.above threshold).select (Line.split contents)).removed = []
  · refine ⟨(Line.split contents).take threshold, (Line.split contents).drop threshold, ?_,
      fun _ => number_le_of_mem_take, fun _ => lt_number_of_mem_drop, rfl, ?_⟩
    · rw [rewrite_of_kept kept, List.take_append_drop]
    · rw [selection] at kept
      rw [retained_of_kept kept]
  · -- Some line stands behind the threshold, so as many lines as it says stand in front of it.
    have reached : ((Line.split contents).take threshold).length = threshold := by
      rw [List.length_take, Nat.min_eq_left]
      by_contra short
      rw [selection, List.drop_eq_nil_of_le (Nat.le_of_not_le short)] at kept
      exact kept rfl
    have numbered : ((Line.split contents).take threshold).map Line.number =
        List.range' 1 ((Line.split contents).take threshold).length := by
      have long : threshold ≤ (Line.split contents).length := by
        rw [← reached]
        exact List.length_take_le' ..
      rw [List.map_take, Line.map_number_split, List.take_range'_of_length_ge long, reached]
    have lowered := split_rewrite_of_removed kept
    rw [selection, Line.renumbered_append, Line.renumbered_of_numbered numbered, reached] at lowered
    refine ⟨_, _, lowered, ?_, ?_, ?_, Line.render_mapIdx ?_ _⟩
    · intro line member
      obtain ⟨source, listed, rfl⟩ := List.mem_map.mp member
      show source.number ≤ threshold
      exact number_le_of_mem_take listed
    · intro line member
      obtain ⟨index, inside, rfl⟩ := List.mem_mapIdx.mp member
      show threshold < index + threshold + 1
      omega
    · rw [List.map_map, Line.normalized_comp_normalized]
    · intro index line
      exact line.rendered_normalized

/-- The run up to the threshold removes of those lines what it would have removed at first. -/
theorem KeepsLower.map_removed {lower upper : List Line}
    (keeps : rules.KeepsLower threshold (Line.split contents) lower upper)
    (split : Line.split ((rules.above threshold).rewrite contents) = lower ++ upper) :
    (rules.select lower).removed.map Removal.withoutTerminator =
      (rules.select ((Line.split contents).take threshold)).removed.map
        Removal.withoutTerminator := by
  have lowerPlain : ∀ line ∈ lower, line.IsPlain := by
    intro line member
    apply Line.isPlain_of_mem_split
    rw [split]
    exact List.mem_append_left upper member
  have plain : ∀ line ∈ (Line.split contents).take threshold, line.IsPlain :=
    fun line member => Line.isPlain_of_mem_split (List.mem_of_mem_take member)
  rw [map_withoutTerminator_removed lowerPlain, keeps.normalized,
    ← map_withoutTerminator_removed plain]

theorem KeepsLower.render_retained {lines lower upper : List Line}
    (keeps : rules.KeepsLower threshold lines lower upper) :
    Line.render (rules.select lower).retained =
      Line.render (rules.select (lines.take threshold)).retained := by
  apply Line.render_congr
  rw [← retained_map_normalized, keeps.normalized, retained_map_normalized]

/-- A single run sees both parts of the lines side by side. -/
theorem select_split (rules : Rules) (threshold : Nat) (contents : String) :
    rules.select (Line.split contents) =
      ⟨(rules.select ((Line.split contents).take threshold)).retained ++
          (rules.select ((Line.split contents).drop threshold)).retained,
        (rules.select ((Line.split contents).take threshold)).removed ++
          (rules.select ((Line.split contents).drop threshold)).removed⟩ := by
  rw [← select_append, List.take_append_drop]

/-- Both runs remove together what the single run removes, the upper part last. -/
theorem map_removed_above_upTo (rules : Rules) (threshold : Nat) (contents : String) :
    (rules.select (Line.split contents)).removed.map Removal.withoutTerminator =
      ((rules.upTo threshold).select
          (Line.split ((rules.above threshold).rewrite contents))).removed.map
        Removal.withoutTerminator ++
      ((rules.above threshold).select (Line.split contents)).removed.map
        Removal.withoutTerminator := by
  obtain ⟨lower, upper, split, keeps⟩ := exists_keepsLower rules threshold contents
  rw [split, select_upTo_append keeps.below keeps.beyond, select_above_split,
    select_split rules threshold, keeps.map_removed split, List.map_append]

/-- Both runs leave the text that the single run leaves. -/
theorem rewrite_above_upTo (rules : Rules) (threshold : Nat) (contents : String) :
    (rules.upTo threshold).rewrite ((rules.above threshold).rewrite contents) =
      rules.rewrite contents := by
  obtain ⟨lower, upper, split, keeps⟩ := exists_keepsLower rules threshold contents
  have single := select_split rules threshold contents
  have first := select_above_split rules threshold contents
  have second : (rules.upTo threshold).select
      (Line.split ((rules.above threshold).rewrite contents)) =
      ⟨(rules.select lower).retained ++ upper, (rules.select lower).removed⟩ := by
    rw [split, select_upTo_append keeps.below keeps.beyond]
  have secondKept : ((rules.upTo threshold).select
      (Line.split ((rules.above threshold).rewrite contents))).removed = [] ↔
      (rules.select ((Line.split contents).take threshold)).removed = [] := by
    rw [second, ← List.map_eq_nil_iff, keeps.map_removed split, List.map_eq_nil_iff]
  -- Only a run that removes something renders the text, so each part counts by itself.
  by_cases low : (rules.select ((Line.split contents).take threshold)).removed = []
  · rw [rewrite_of_kept (secondKept.mpr low)]
    by_cases high : (rules.select ((Line.split contents).drop threshold)).removed = []
    · have singleKept : (rules.select (Line.split contents)).removed = [] := by
        rw [single, low, high, List.append_nil]
      have firstKept : ((rules.above threshold).select (Line.split contents)).removed = [] := by
        rw [first, high]
      rw [rewrite_of_kept singleKept, rewrite_of_kept firstKept]
    · have singleRemoved : (rules.select (Line.split contents)).removed ≠ [] := by
        rw [single]
        exact List.append_ne_nil_of_right_ne_nil _ high
      have firstRemoved : ((rules.above threshold).select (Line.split contents)).removed ≠ [] := by
        rw [first]
        exact high
      rw [rewrite_of_removed singleRemoved, rewrite_of_removed firstRemoved, first, single,
        retained_of_kept low]
  · have singleRemoved : (rules.select (Line.split contents)).removed ≠ [] := by
      rw [single]
      exact List.append_ne_nil_of_left_ne_nil low _
    have secondRemoved := mt secondKept.mp low
    rw [rewrite_of_removed singleRemoved, rewrite_of_removed secondRemoved, second, single,
      Line.render_append, Line.render_append, keeps.render_retained, keeps.rendered]

end Runs

end Rules

/-- What a single run has in common with two runs that share its rules among them. -/
structure SharedRunsLaw (path : RawText) (single high low : Outcome)
    (afterSingle afterLow : FileTree) : Prop where
  contents : ∃ left, afterSingle.HoldsText path left ∧ afterLow.HoldsText path left
  unchanged_iff : single = .unchanged ↔ high = .unchanged ∧ low = .unchanged
  /-- The numbers, reasons and texts are the same, and those of the last run come first. -/
  removed : single.removed.map Removal.withoutTerminator =
    low.removed.map Removal.withoutTerminator ++ high.removed.map Removal.withoutTerminator

namespace FileTree

/-- Sound rules can be shared at any threshold, if the larger positions have their run first. -/
theorem sharedRunsLaw_of_threshold {tree : FileTree} {path : RawText} {contents : String}
    {rules : Rules} (sound : rules.defects = []) (holds : tree.HoldsText path contents)
    (threshold : Nat) :
    (rules.above threshold).defects = [] ∧ (rules.upTo threshold).defects = [] ∧
      ∃ single high low afterSingle afterHigh afterLow,
        tree.runEdit path rules = (.ok single, afterSingle) ∧
        tree.runEdit path (rules.above threshold) = (.ok high, afterHigh) ∧
        afterHigh.runEdit path (rules.upTo threshold) = (.ok low, afterLow) ∧
        SharedRunsLaw path single high low afterSingle afterLow := by
  have aboveSound : (rules.above threshold).defects = [] := Rules.defects_restricted sound _
  have upToSound : (rules.upTo threshold).defects = [] := Rules.defects_restricted sound _
  obtain ⟨afterSingle, single, singleHolds, _⟩ := runEdit_of_text sound holds
  obtain ⟨afterHigh, high, highHolds, _⟩ := runEdit_of_text aboveSound holds
  obtain ⟨afterLow, low, lowHolds, _⟩ := runEdit_of_text upToSound highHolds
  rw [Rules.rewrite_above_upTo] at lowHolds
  have removals := Rules.map_removed_above_upTo rules threshold contents
  refine ⟨aboveSound, upToSound, _, _, _, afterSingle, afterHigh, afterLow, single, high, low,
    ⟨_, singleHolds, lowHolds⟩, ?_, ?_⟩
  · rw [Rules.outcomeOn_eq_unchanged_iff, Rules.outcomeOn_eq_unchanged_iff,
      Rules.outcomeOn_eq_unchanged_iff, ← List.map_eq_nil_iff, removals, List.append_eq_nil_iff,
      List.map_eq_nil_iff, List.map_eq_nil_iff, and_comm]
  · rw [Rules.removed_outcomeOn, Rules.removed_outcomeOn, Rules.removed_outcomeOn, removals]

/-- A file with all three terminators loses its last two lines in the first run and its second line
in the other one. -/
theorem sharedRunsLaw_of_mixed_terminators :
    let tree : FileTree := ⟨[(["router.tsx"], .file "a\r\nb],\r\nc\rd\n],".toUTF8)], []⟩
    let rules : Rules := ⟨.ofList [2, 5], ["],"], .ofList [4]⟩
    rules.defects = [] ∧ tree.HoldsText "router.tsx" "a\r\nb],\r\nc\rd\n]," ∧
      (rules.above 2).defects = [] ∧ (rules.upTo 2).defects = [] ∧
      ∃ single high low afterSingle afterHigh afterLow,
        tree.runEdit "router.tsx" rules = (.ok single, afterSingle) ∧
        tree.runEdit "router.tsx" (rules.above 2) = (.ok high, afterHigh) ∧
        afterHigh.runEdit "router.tsx" (rules.upTo 2) = (.ok low, afterLow) ∧
        SharedRunsLaw "router.tsx" single high low afterSingle afterLow := by
  intro tree rules
  have sound : rules.defects = [] := by decide
  have holds : tree.HoldsText "router.tsx" "a\r\nb],\r\nc\rd\n]," := rfl
  exact ⟨sound, holds, sharedRunsLaw_of_threshold sound holds 2⟩

end FileTree

end LinePrune
