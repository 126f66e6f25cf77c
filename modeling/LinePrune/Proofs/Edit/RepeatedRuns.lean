/-
This file bounds the runs that change a target under the same rules.
-/

import LinePrune.Proofs.Edit.SecondRun
import LinePrune.Proofs.Selection.RemovedPositions
import Mathlib.Order.Bounds.Basic

namespace LinePrune

namespace Rules

/-- The positions of both kinds. -/
def positions (rules : Rules) : Set Nat :=
  {number | rules.conditional.contains number = true ∨ rules.unconditional.contains number = true}

theorem keep_of_not_mem_positions {rules : Rules} {number : Nat}
    (elsewhere : number ∉ rules.positions) (text : String) :
    rules.disposition number text = .keep := by
  simp only [positions, Set.mem_ofPred_eq, not_or, Bool.not_eq_true] at elsewhere
  simp only [disposition, elsewhere, Bool.false_eq_true, ↓reduceIte]

section Step

variable {rules : Rules} {contents : String} {first : Nat}

theorem first_le_number_of_removed (least : IsLeast rules.positions first) {lines : List Line}
    {removal : Removal} (removed : removal ∈ (rules.select lines).removed) :
    first ≤ removal.number := by
  obtain ⟨line, _, reason, decided, rfl⟩ := mem_removed_iff.mp removed
  refine least.2 ?_
  by_contra elsewhere
  rw [keep_of_not_mem_positions elsewhere] at decided
  contradiction

/-- A text from which a line is removed reaches the first position. -/
theorem first_le_length_of_removed (least : IsLeast rules.positions first)
    (removed : (rules.select (Line.split contents)).removed ≠ []) :
    first ≤ (Line.split contents).length := by
  obtain ⟨removal, member⟩ := List.exists_mem_of_ne_nil _ removed
  have reached := first_le_number_of_removed least member
  obtain ⟨line, lineMember, reason, _, rfl⟩ := mem_removed_iff.mp member
  have inside := mem_Icc_iff_exists_line.mpr ⟨line, lineMember, rfl⟩
  rw [Finset.mem_Icc] at inside
  exact Nat.le_trans reached inside.2

/-- A filter that keeps the first elements of a list leaves them in front. -/
theorem take_filter_of_kept {α : Type} {keep : α → Bool} {count : Nat} {items : List α}
    (kept : ∀ item ∈ items.take count, keep item = true) :
    (items.filter keep).take count = items.take count := by
  induction items generalizing count with
  | nil => rfl
  | cons item rest ih =>
      cases count with
      | zero => rfl
      | succ count =>
          simp only [List.take_succ_cons, List.forall_mem_cons] at kept
          rw [List.filter_cons_of_pos kept.1, List.take_succ_cons, List.take_succ_cons, ih kept.2]

/-- The first lines of a text have the smallest numbers. -/
theorem number_le_of_mem_take {count : Nat} {line : Line}
    (member : line ∈ (Line.split contents).take count) : line.number ≤ count := by
  have numbered : line.number ∈ ((Line.split contents).take count).map Line.number :=
    List.mem_map_of_mem member
  rw [List.map_take, Line.map_number_split] at numbered
  rcases Nat.le_total (Line.split contents).length count with short | long
  · rw [List.take_range'_of_length_le short, List.mem_range'_1] at numbered
    omega
  · rw [List.take_range'_of_length_ge long, List.mem_range'_1] at numbered
    omega

/-- The texts in front of the first position outlive a run. -/
theorem take_text_rewrite (least : IsLeast rules.positions first) :
    ((Line.split (rules.rewrite contents)).map Line.text).take (first - 1) =
      ((Line.split contents).map Line.text).take (first - 1) := by
  by_cases removed : (rules.select (Line.split contents)).removed = []
  · rw [rewrite_of_kept removed]
  · rw [split_rewrite_of_removed removed, Line.map_text_renumbered, ← List.map_take,
      ← List.map_take, retained_eq_filter, take_filter_of_kept]
    intro line member
    have below := number_le_of_mem_take member
    have inside : line.number ∈ Finset.Icc 1 (Line.split contents).length :=
      mem_Icc_iff_exists_line.mpr ⟨line, List.mem_of_mem_take member, rfl⟩
    rw [Finset.mem_Icc] at inside
    refine decide_eq_true (keep_of_not_mem_positions (fun listed => ?_) line.text)
    have reached := least.2 listed
    omega

end Step

section Runs

variable {rules : Rules} {contents : String} {first : Nat}

/-- The text that a number of runs leave. -/
def rewriteRuns (rules : Rules) (contents : String) (runs : Nat) : String :=
  rules.rewrite^[runs] contents

theorem rewriteRuns_succ (rules : Rules) (contents : String) (runs : Nat) :
    rules.rewriteRuns contents (runs + 1) = rules.rewrite (rules.rewriteRuns contents runs) :=
  Function.iterate_succ_apply' ..

theorem take_text_rewriteRuns (least : IsLeast rules.positions first) (runs : Nat) :
    ((Line.split (rules.rewriteRuns contents runs)).map Line.text).take (first - 1) =
      ((Line.split contents).map Line.text).take (first - 1) := by
  induction runs with
  | zero => rfl
  | succ runs ih => rw [rewriteRuns_succ, take_text_rewrite least, ih]

/-- A text from which nothing is removed is left alone for good. -/
theorem rewriteRuns_of_kept {run : Nat}
    (kept : (rules.select (Line.split (rules.rewriteRuns contents run))).removed = [])
    {later : Nat} (after : run ≤ later) :
    rules.rewriteRuns contents later = rules.rewriteRuns contents run := by
  induction later, after using Nat.le_induction with
  | base => rfl
  | succ later _ ih => rw [rewriteRuns_succ, ih, rewrite_of_kept kept]

/-- Every run that changes the text takes at least one line of it. -/
theorem length_rewriteRuns_add_le {run : Nat}
    (removed : (rules.select (Line.split (rules.rewriteRuns contents run))).removed ≠ []) :
    (Line.split (rules.rewriteRuns contents run)).length + run ≤
      (Line.split contents).length := by
  induction run with
  | zero => exact Nat.le_refl _
  | succ run ih =>
      -- A run that changes the text comes after runs that did so too.
      have before : (rules.select (Line.split (rules.rewriteRuns contents run))).removed ≠ [] := by
        intro kept
        rw [rewriteRuns_of_kept kept (Nat.le_succ run)] at removed
        exact removed kept
      have shorter := length_rewrite_lt before
      rw [← rewriteRuns_succ] at shorter
      have bound := ih before
      omega

/-- No later run than these can change the text. -/
theorem run_lt_of_removed (least : IsLeast rules.positions first) {run : Nat}
    (removed : (rules.select (Line.split (rules.rewriteRuns contents run))).removed ≠ []) :
    run < (Line.split contents).length + 1 - first := by
  have reached := first_le_length_of_removed least removed
  have bound := length_rewriteRuns_add_le removed
  omega

end Runs

section Settled

variable {rules : Rules} {contents : String}

/-- A text that keeps all its lines ends in front of the unconditional positions. -/
theorem length_lt_of_kept (sound : rules.defects = [])
    (kept : (rules.select (Line.split contents)).removed = []) {number : Nat}
    (unconditional : rules.unconditional.contains number = true) :
    (Line.split contents).length < number := by
  by_contra reached
  have positive : number ≠ 0 := by
    rintro rfl
    rw [(defects_eq_nil_iff.mp sound).2.1] at unconditional
    contradiction
  have inside : number ∈ Finset.Icc 1 (Line.split contents).length := by
    rw [Finset.mem_Icc]
    omega
  obtain ⟨line, member, rfl⟩ := mem_Icc_iff_exists_line.mp inside
  have keep := removed_eq_nil_iff.mp kept line member
  rw [(hits_iff sound).mp (.unconditional unconditional)] at keep
  contradiction

/-- A text that keeps all its lines has no trigger at a conditional position. -/
theorem not_holds_of_kept (sound : rules.defects = [])
    (kept : (rules.select (Line.split contents)).removed = []) {line : Line}
    (member : line ∈ Line.split contents)
    (conditional : rules.conditional.contains line.number = true) {trigger : String}
    (listed : trigger ∈ rules.triggers) : ¬ Text.Holds line.text trigger := by
  intro held
  have keep := removed_eq_nil_iff.mp kept line member
  rw [(hits_iff sound).mp (.trigger trigger conditional listed held)] at keep
  contradiction

end Settled

end Rules

namespace FileTree

/-- The tree that a number of runs leave, one after the other. -/
def afterRuns (tree : FileTree) (path : RawText) (rules : Rules) : Nat → FileTree
  | 0 => tree
  | runs + 1 => ((tree.afterRuns path rules runs).runEdit path rules).2

/-- The result of one run of many, the first of which has the number zero. -/
def resultOfRun (tree : FileTree) (path : RawText) (rules : Rules) (run : Nat) :
    Except EditError Outcome :=
  ((tree.afterRuns path rules run).runEdit path rules).1

/-- This says that a run changed its target. -/
def UpdatedIn (tree : FileTree) (path : RawText) (rules : Rules) (run : Nat) : Prop :=
  ∃ removed, tree.resultOfRun path rules run = .ok (.updated removed)

section Runs

variable {tree : FileTree} {path : RawText} {contents : String} {rules : Rules}

theorem holdsText_afterRuns (sound : rules.defects = []) (holds : tree.HoldsText path contents)
    (runs : Nat) :
    (tree.afterRuns path rules runs).HoldsText path (rules.rewriteRuns contents runs) := by
  induction runs with
  | zero => exact holds
  | succ runs ih =>
      obtain ⟨after, run, afterHolds, _⟩ := runEdit_of_text sound ih
      rw [afterRuns, run, Rules.rewriteRuns_succ]
      exact afterHolds

theorem resultOfRun_eq (sound : rules.defects = []) (holds : tree.HoldsText path contents)
    (run : Nat) :
    tree.resultOfRun path rules run =
      .ok (rules.outcomeOn (rules.rewriteRuns contents run)) := by
  obtain ⟨after, ran, _⟩ := runEdit_of_text sound (holdsText_afterRuns sound holds run)
  rw [resultOfRun, ran]

theorem resultOfRun_eq_unchanged_iff (sound : rules.defects = [])
    (holds : tree.HoldsText path contents) {run : Nat} :
    tree.resultOfRun path rules run = .ok .unchanged ↔
      (rules.select (Line.split (rules.rewriteRuns contents run))).removed = [] := by
  rw [resultOfRun_eq sound holds, Except.ok.injEq, Rules.outcomeOn_eq_unchanged_iff]

theorem resultOfRun_eq_updated_iff (sound : rules.defects = [])
    (holds : tree.HoldsText path contents) {run : Nat} {removed : List Removal} :
    tree.resultOfRun path rules run = .ok (.updated removed) ↔ removed ≠ [] ∧
      removed = (rules.select (Line.split (rules.rewriteRuns contents run))).removed := by
  rw [resultOfRun_eq sound holds, Except.ok.injEq, Rules.outcomeOn_eq_updated_iff]

theorem updatedIn_iff (sound : rules.defects = []) (holds : tree.HoldsText path contents)
    {run : Nat} :
    tree.UpdatedIn path rules run ↔
      (rules.select (Line.split (rules.rewriteRuns contents run))).removed ≠ [] := by
  simp only [UpdatedIn, resultOfRun_eq_updated_iff sound holds]
  simp

/-- A run that finds nothing leaves the whole tree alone. -/
theorem afterRuns_of_unchanged (sound : rules.defects = [])
    (holds : tree.HoldsText path contents) {run : Nat}
    (unchanged : tree.resultOfRun path rules run = .ok .unchanged) {later : Nat}
    (after : run ≤ later) :
    tree.afterRuns path rules later = tree.afterRuns path rules run := by
  induction later, after using Nat.le_induction with
  | base => rfl
  | succ later _ ih =>
      obtain ⟨left, ran, _, same⟩ := runEdit_of_text sound (holdsText_afterRuns sound holds run)
      have outcome := unchanged
      rw [resultOfRun_eq sound holds, Except.ok.injEq] at outcome
      rw [afterRuns, ih, ran]
      exact same outcome

end Runs

end FileTree

/-- What holds of all runs on a target with the given contents. The text that the target holds
before each run is `file`, and the least position of the rules is counted from one. -/
structure RepeatedRunsLaw (tree : FileTree) (path : RawText) (rules : Rules) (contents : String)
    (file : Nat → String) : Prop where
  starts : file 0 = contents
  holds : ∀ run, (tree.afterRuns path rules run).HoldsText path (file run)
  /-- No run fails or misses its target. -/
  answers : ∀ run,
    tree.resultOfRun path rules run = .ok .unchanged ∨ tree.UpdatedIn path rules run
  shrinks : ∀ run, tree.UpdatedIn path rules run →
    (Line.split (file (run + 1))).length < (Line.split (file run)).length
  /-- The texts in front of the first position stay as they are. -/
  spares : ∀ first, IsLeast rules.positions first → ∀ run,
    ((Line.split (file run)).map Line.text).take (first - 1) =
      ((Line.split contents).map Line.text).take (first - 1) ∧
    ∀ removed, tree.resultOfRun path rules run = .ok (.updated removed) →
      ∀ removal ∈ removed, first ≤ removal.number
  bounded : ∀ first, IsLeast rules.positions first → ∀ runs : Finset Nat,
    (∀ run ∈ runs, tree.UpdatedIn path rules run) →
      runs.card ≤ (Line.split contents).length + 1 - first
  /-- After a run that finds nothing neither the target nor any other file changes. -/
  rests : ∀ run, tree.resultOfRun path rules run = .ok .unchanged → ∀ later, run ≤ later →
    tree.resultOfRun path rules later = .ok .unchanged ∧ file later = file run ∧
      tree.afterRuns path rules later = tree.afterRuns path rules run
  settled : ∀ run, tree.resultOfRun path rules run = .ok .unchanged →
    (∀ first, IsLeast {number | rules.unconditional.contains number = true} first →
      (Line.split (file run)).length < first) ∧
    ∀ line ∈ Line.split (file run), rules.conditional.contains line.number = true →
      ∀ trigger ∈ rules.triggers, ¬ Text.Holds line.text trigger
  idle : rules.positions = ∅ → ∀ run, tree.resultOfRun path rules run = .ok .unchanged

namespace FileTree

/-- Runs with sound rules on a file that holds a text follow the law. -/
theorem repeatedRunsLaw_rewriteRuns {tree : FileTree} {path : RawText} {contents : String}
    {rules : Rules} (sound : rules.defects = []) (holds : tree.HoldsText path contents) :
    RepeatedRunsLaw tree path rules contents (rules.rewriteRuns contents) where
  starts := rfl
  holds := holdsText_afterRuns sound holds
  answers run := by
    rw [resultOfRun_eq_unchanged_iff sound holds, updatedIn_iff sound holds]
    exact em _
  shrinks run updated := by
    rw [Rules.rewriteRuns_succ]
    exact Rules.length_rewrite_lt ((updatedIn_iff sound holds).mp updated)
  spares first least run := by
    refine ⟨Rules.take_text_rewriteRuns least run, fun removed updated removal member => ?_⟩
    obtain ⟨_, rfl⟩ := (resultOfRun_eq_updated_iff sound holds).mp updated
    exact Rules.first_le_number_of_removed least member
  bounded first least runs updated := by
    have early : runs ⊆ Finset.range ((Line.split contents).length + 1 - first) := by
      intro run member
      rw [Finset.mem_range]
      exact Rules.run_lt_of_removed least ((updatedIn_iff sound holds).mp (updated run member))
    exact (Finset.card_le_card early).trans_eq (Finset.card_range _)
  rests run unchanged later after := by
    have kept := (resultOfRun_eq_unchanged_iff sound holds).mp unchanged
    have same := Rules.rewriteRuns_of_kept kept after
    refine ⟨?_, same, afterRuns_of_unchanged sound holds unchanged after⟩
    rw [resultOfRun_eq_unchanged_iff sound holds, same]
    exact kept
  settled run unchanged := by
    have kept := (resultOfRun_eq_unchanged_iff sound holds).mp unchanged
    exact ⟨fun first least => Rules.length_lt_of_kept sound kept least.1,
      fun line member conditional trigger listed =>
        Rules.not_holds_of_kept sound kept member conditional listed⟩
  idle none run := by
    rw [resultOfRun_eq_unchanged_iff sound holds, Rules.removed_eq_nil_iff]
    intro line _
    exact Rules.keep_of_not_mem_positions (by simp [none]) line.text

/-- A file of five lines loses two of them in the first run and another one in the second. -/
theorem repeatedRunsLaw_of_five_lines :
    let tree : FileTree := ⟨[(["router.tsx"], .file "a\r\nb],\nc\rd\ne".toUTF8)], []⟩
    let rules : Rules := ⟨.ofList [2], ["],"], .ofList [3]⟩
    rules.defects = [] ∧ tree.HoldsText "router.tsx" "a\r\nb],\nc\rd\ne" ∧
      RepeatedRunsLaw tree "router.tsx" rules "a\r\nb],\nc\rd\ne"
        (rules.rewriteRuns "a\r\nb],\nc\rd\ne") := by
  intro tree rules
  have sound : rules.defects = [] := by decide
  have holds : tree.HoldsText "router.tsx" "a\r\nb],\nc\rd\ne" := rfl
  exact ⟨sound, holds, repeatedRunsLaw_rewriteRuns sound holds⟩

end FileTree

end LinePrune
