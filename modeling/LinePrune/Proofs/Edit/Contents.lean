import LinePrune.Proofs.Edit.Decision
import LinePrune.Proofs.Line.Rendering

namespace LinePrune

/-- Only an update removes anything. -/
def Outcome.removed : Outcome → List Removal
  | .notFound _ => []
  | .unchanged => []
  | .updated removed => removed

namespace Rules

/-- The outcome on a text, which depends on nothing else. -/
def outcomeOn (rules : Rules) (contents : String) : Outcome :=
  let removed := (rules.select (Line.split contents)).removed
  if removed = [] then .unchanged else .updated removed

/-- The text that a run leaves. A text that loses no line keeps all its terminators. -/
def rewrite (rules : Rules) (contents : String) : String :=
  let selection := rules.select (Line.split contents)
  if selection.removed = [] then contents else Line.render selection.retained

variable {rules : Rules} {contents : String}

theorem outcomeOn_eq_unchanged_iff :
    rules.outcomeOn contents = .unchanged ↔ (rules.select (Line.split contents)).removed = [] := by
  simp only [outcomeOn]
  split <;> simp [*]

theorem outcomeOn_eq_updated_iff {removed : List Removal} :
    rules.outcomeOn contents = .updated removed ↔
      removed ≠ [] ∧ removed = (rules.select (Line.split contents)).removed := by
  simp only [outcomeOn]
  split
  next nothing => simp [nothing]
  next something =>
    simp only [Outcome.updated.injEq]
    exact ⟨fun same => ⟨same ▸ something, same.symm⟩, fun condition => condition.2.symm⟩

theorem removed_outcomeOn (rules : Rules) (contents : String) :
    (rules.outcomeOn contents).removed = (rules.select (Line.split contents)).removed := by
  simp only [outcomeOn]
  split
  next nothing => exact nothing.symm
  next => rfl

theorem rewrite_of_kept (kept : (rules.select (Line.split contents)).removed = []) :
    rules.rewrite contents = contents := by
  simp only [rewrite, kept, ↓reduceIte]

theorem rewrite_of_removed (removed : (rules.select (Line.split contents)).removed ≠ []) :
    rules.rewrite contents = Line.render (rules.select (Line.split contents)).retained := by
  simp only [rewrite, removed, ↓reduceIte]

/-- What the rules retain of a file are some of its lines, in their order. -/
theorem retained_sublist (rules : Rules) (lines : List Line) :
    (rules.select lines).retained.Sublist lines :=
  List.filter_sublist

/-- Whatever the rules retain of a file can be told apart again. -/
theorem separate_retained (rules : Rules) (contents : String) :
    Piece.Separate ((rules.select (Line.split contents)).retained.map Line.piece) :=
  (Line.separate_split contents).sublist ((rules.retained_sublist _).map Line.piece)

/-- The lines of a text that lost some are the retained ones, numbered anew. -/
theorem split_rewrite_of_removed (removed : (rules.select (Line.split contents)).removed ≠ []) :
    Line.split (rules.rewrite contents) =
      Line.renumbered (rules.select (Line.split contents)).retained := by
  rw [rewrite_of_removed removed, Line.split_render_of_sublist (rules.retained_sublist _)]

/-- A text that loses a line has fewer lines than before. -/
theorem length_rewrite_lt (removed : (rules.select (Line.split contents)).removed ≠ []) :
    (Line.split (rules.rewrite contents)).length < (Line.split contents).length := by
  have parted := rules.length_select (Line.split contents)
  have some := List.length_pos_iff.mpr removed
  rw [split_rewrite_of_removed removed, Line.length_renumbered]
  omega

end Rules

namespace FileTree

/-- A rewritten file holds what was written to it. -/
theorem Rewritten.holdsText {before after : FileTree} {path : RawText} {contents : String}
    {location : Location} (rewritten : Rewritten before after location contents.toUTF8)
    (located : before.locate path = .ok location) : after.HoldsText path contents := by
  rw [HoldsText, entryOf?_eq_some_iff]
  refine ⟨location, ?_, ?_⟩
  · rw [rewritten.locate_eq, located]
  · rw [rewritten.entries, if_pos rfl]

/-- A run on a text neither fails nor looks at anything but that text. -/
theorem runEdit_of_text {tree : FileTree} {path : RawText} {contents : String} {rules : Rules}
    (sound : rules.defects = []) (holds : tree.HoldsText path contents) :
    ∃ after, tree.runEdit path rules = (.ok (rules.outcomeOn contents), after) ∧
      after.HoldsText path (rules.rewrite contents) ∧
      (rules.outcomeOn contents = .unchanged → after = tree) := by
  by_cases removed : (rules.select (Line.split contents)).removed = []
  · refine ⟨tree, ?_, ?_, fun _ => rfl⟩
    · rw [runEdit_of_kept sound holds removed, Rules.outcomeOn_eq_unchanged_iff.mpr removed]
    · rwa [Rules.rewrite_of_kept removed]
  · obtain ⟨location, after, located, run, rewritten⟩ := runEdit_of_removed sound holds removed
    refine ⟨after, ?_, ?_, ?_⟩
    · rw [run, Rules.outcomeOn_eq_updated_iff.mpr ⟨removed, rfl⟩]
    · rw [Rules.rewrite_of_removed removed]
      exact rewritten.holdsText located
    · intro unchanged
      exact absurd (Rules.outcomeOn_eq_unchanged_iff.mp unchanged) removed

theorem runEdit_of_unreadable {tree : FileTree} {path : RawText} {rules : Rules} {cause : FileError}
    (sound : rules.defects = []) (unreadable : tree.Unreadable path cause) :
    tree.runEdit path rules = (.error (.target (.unreadable path cause)), tree) := by
  cases unreadable with
  | directory found => exact runEdit_of_directory sound found
  | notText bytes found invalid => exact runEdit_of_invalid sound found invalid

/-- With sound rules, what stands at the target decides the run. -/
theorem runEdit_cases (tree : FileTree) (path : RawText) {rules : Rules}
    (sound : rules.defects = []) :
    (tree.entryOf? path = none ∧ tree.runEdit path rules = (.ok (.notFound path), tree)) ∨
      (∃ cause, tree.Unreadable path cause ∧
        tree.runEdit path rules = (.error (.target (.unreadable path cause)), tree)) ∨
      ∃ contents after, tree.HoldsText path contents ∧
        tree.runEdit path rules = (.ok (rules.outcomeOn contents), after) ∧
        after.HoldsText path (rules.rewrite contents) := by
  cases found : tree.entryOf? path with
  | none => exact .inl ⟨rfl, runEdit_of_missing sound found⟩
  | some entry =>
      cases entry with
      | directory =>
          have unreadable : tree.Unreadable path .isDirectory := .directory found
          exact .inr (.inl ⟨_, unreadable, runEdit_of_unreadable sound unreadable⟩)
      | file bytes =>
          by_cases valid : bytes.IsValidUTF8
          · obtain ⟨contents, rfl⟩ := exists_toUTF8_of_isValid valid
            obtain ⟨after, run, leaves, _⟩ := runEdit_of_text sound found
            exact .inr (.inr ⟨contents, after, found, run, leaves⟩)
          · have unreadable : tree.Unreadable path .notText := .notText bytes found valid
            exact .inr (.inl ⟨_, unreadable, runEdit_of_unreadable sound unreadable⟩)

/-- A run that does not fail finds nothing, or makes of a text what the rules make of it. -/
theorem outcome_cases {tree after : FileTree} {path : RawText} {rules : Rules} {outcome : Outcome}
    (run : tree.runEdit path rules = (.ok outcome, after)) :
    outcome = .notFound path ∨ ∃ contents, tree.HoldsText path contents ∧
      outcome = rules.outcomeOn contents ∧ after.HoldsText path (rules.rewrite contents) := by
  by_cases sound : rules.defects = []
  · rcases runEdit_cases tree path sound with ⟨_, ran⟩ | ⟨cause, _, ran⟩ |
      ⟨contents, left, holds, ran, leaves⟩
    · rw [ran, Prod.mk.injEq, Except.ok.injEq] at run
      exact .inl run.1.symm
    · rw [ran] at run
      simp at run
    · rw [ran, Prod.mk.injEq, Except.ok.injEq] at run
      obtain ⟨rfl, rfl⟩ := run
      exact .inr ⟨contents, holds, rfl, leaves⟩
  · rw [runEdit_of_defects sound] at run
    simp at run

/-- Only sound rules lead to an outcome. -/
theorem defects_of_updated {tree after : FileTree} {path : RawText} {rules : Rules}
    {removed : List Removal} (updated : tree.runEdit path rules = (.ok (.updated removed), after)) :
    rules.defects = [] := by
  by_contra defective
  rw [runEdit_of_defects defective] at updated
  simp at updated

end FileTree

end LinePrune
