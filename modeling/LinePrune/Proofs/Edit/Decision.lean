import LinePrune.Proofs.Edit.Run
import Mathlib.Data.List.Sort

namespace LinePrune

/-- The list records every line that the rules drop, in ascending order of the line numbers. -/
structure Rules.Records (rules : Rules) (lines : List Line) (removed : List Removal) : Prop where
  ascending : (removed.map Removal.number).Pairwise (· < ·)
  mem_iff : ∀ removal, removal ∈ removed ↔
    ∃ line ∈ lines, ∃ reason,
      rules.disposition line.number line.text = .remove reason ∧
        removal = ⟨line.number, reason, line.content⟩

/-- The selection of a file leaves one such list, and there is no other one. -/
theorem Rules.records_iff (rules : Rules) {lines : List Line}
    (ascending : (lines.map Line.number).Pairwise (· < ·)) (removed : List Removal) :
    rules.Records lines removed ↔ removed = (rules.select lines).removed := by
  constructor
  · intro records
    have : Std.Irrefl fun first second : Removal => first.number < second.number :=
      ⟨fun removal => Nat.lt_irrefl removal.number⟩
    refine List.Pairwise.eq_of_mem_iff (List.pairwise_map.mp records.ascending)
      (List.pairwise_map.mp (rules.ascending_removed ascending)) fun removal => ?_
    rw [records.mem_iff, mem_removed_iff]
  · intro same
    subst same
    exact ⟨rules.ascending_removed ascending, fun removal => mem_removed_iff⟩

namespace FileTree

/-- The contents of a file are the text whose bytes it holds. -/
def HoldsText (tree : FileTree) (path : RawText) (contents : String) : Prop :=
  tree.entryOf? path = some (.file contents.toUTF8)

/-- A target that stands but cannot be read is a directory or holds no text. -/
inductive Unreadable (tree : FileTree) (path : RawText) : FileError → Prop where
  | directory : tree.entryOf? path = some .directory → Unreadable tree path .isDirectory
  | notText (bytes : ByteArray) :
      tree.entryOf? path = some (.file bytes) → ¬ bytes.IsValidUTF8 → Unreadable tree path .notText

end FileTree

/-- Each outcome of an edit has its own condition, and all but an update leave the tree alone. -/
structure EditLaw (tree : FileTree) (path : RawText) (rules : Rules)
    (result : Except EditError Outcome) (after : FileTree) : Prop where
  /-- Defective rules are refused with all their defects, whatever the tree holds. -/
  refused : ∀ defects, result = .error (.invalidRules defects) ↔
    rules.defects ≠ [] ∧ defects = rules.defects
  notFound : ∀ missing, result = .ok (.notFound missing) ↔
    rules.defects = [] ∧ tree.entryOf? path = none ∧ missing = path
  /-- The target can fail in no other way than to be unreadable. -/
  unreadable : ∀ error, result = .error (.target error) ↔
    rules.defects = [] ∧ ∃ cause, tree.Unreadable path cause ∧ error = .unreadable path cause
  unchanged : result = .ok .unchanged ↔
    rules.defects = [] ∧ ∃ contents, tree.HoldsText path contents ∧
      ∀ line ∈ Line.split contents, rules.disposition line.number line.text = .keep
  updated : ∀ removed, result = .ok (.updated removed) ↔
    rules.defects = [] ∧ ∃ contents, tree.HoldsText path contents ∧
      (∃ line ∈ Line.split contents, rules.disposition line.number line.text ≠ .keep) ∧
      rules.Records (Line.split contents) removed
  untouched : (∀ removed, result ≠ .ok (.updated removed)) → after = tree
  /-- The lines that an update writes are those that the rules keep, in their order. -/
  rewritten : ∀ removed, result = .ok (.updated removed) →
    ∃ location contents, tree.locate path = .ok location ∧ tree.HoldsText path contents ∧
      tree.Rewritten after location (Line.render ((Line.split contents).filter fun line =>
        rules.disposition line.number line.text = .keep)).toUTF8 ∧
      ∀ other, after.locate other = tree.locate other

namespace FileTree

variable {tree : FileTree} {path : RawText} {rules : Rules}

theorem HoldsText.unique {contents other : String} (first : tree.HoldsText path contents)
    (second : tree.HoldsText path other) : contents = other := by
  have same := first.symm.trans second
  simp only [Option.some.injEq, Entry.file.injEq, String.toUTF8_eq_toByteArray] at same
  exact String.toByteArray_inj.mp same

namespace Unreadable

variable {cause : FileError}

theorem entryOf?_ne_none (unreadable : tree.Unreadable path cause) : tree.entryOf? path ≠ none := by
  cases unreadable with
  | directory found => simp [found]
  | notText bytes found _ => simp [found]

theorem not_holdsText (unreadable : tree.Unreadable path cause) (contents : String) :
    ¬ tree.HoldsText path contents := by
  intro holds
  cases unreadable with
  | directory found =>
      have same := found.symm.trans holds
      simp at same
  | notText bytes found invalid =>
      have same := found.symm.trans holds
      simp only [Option.some.injEq, Entry.file.injEq] at same
      exact invalid (same ▸ contents.isValidUTF8)

theorem unique {other : FileError} (first : tree.Unreadable path cause)
    (second : tree.Unreadable path other) : cause = other := by
  cases first with
  | directory found =>
      cases second with
      | directory => rfl
      | notText bytes otherFound _ =>
          have same := found.symm.trans otherFound
          simp at same
  | notText bytes found _ =>
      cases second with
      | directory otherFound =>
          have same := found.symm.trans otherFound
          simp at same
      | notText => rfl

end Unreadable

theorem editLaw_of_defects (defective : rules.defects ≠ []) :
    EditLaw tree path rules (.error (.invalidRules rules.defects)) tree where
  refused defects := by simp [defective, eq_comm]
  notFound missing := by simp [defective]
  unreadable error := by simp [defective]
  unchanged := by simp [defective]
  updated removed := by simp [defective]
  untouched _ := rfl
  rewritten removed updated := by simp at updated

theorem editLaw_of_missing (sound : rules.defects = []) (missing : tree.entryOf? path = none) :
    EditLaw tree path rules (.ok (.notFound path)) tree where
  refused defects := by simp [sound]
  notFound other := by simp [sound, missing, eq_comm]
  unreadable error := by
    have notUnreadable (cause : FileError) : ¬ tree.Unreadable path cause :=
      fun unreadable => unreadable.entryOf?_ne_none missing
    simp [notUnreadable]
  unchanged := by simp [HoldsText, missing]
  updated removed := by simp [HoldsText, missing]
  untouched _ := rfl
  rewritten removed updated := by simp at updated

theorem editLaw_of_unreadable (sound : rules.defects = []) {cause : FileError}
    (unreadable : tree.Unreadable path cause) :
    EditLaw tree path rules (.error (.target (.unreadable path cause))) tree where
  refused defects := by simp [sound]
  notFound missing := by simp [unreadable.entryOf?_ne_none]
  unreadable error := by
    constructor
    · intro same
      obtain rfl := EditError.target.inj (Except.error.inj same)
      exact ⟨sound, cause, unreadable, rfl⟩
    · intro condition
      rcases condition with ⟨_, other, otherUnreadable, rfl⟩
      rw [unreadable.unique otherUnreadable]
  unchanged := by simp [unreadable.not_holdsText]
  updated removed := by simp [unreadable.not_holdsText]
  untouched _ := rfl
  rewritten removed updated := by simp at updated

theorem editLaw_of_kept (sound : rules.defects = []) {contents : String}
    (holds : tree.HoldsText path contents)
    (kept : ∀ line ∈ Line.split contents, rules.disposition line.number line.text = .keep) :
    EditLaw tree path rules (.ok .unchanged) tree where
  refused defects := by simp [sound]
  notFound missing := by simp [show tree.entryOf? path = _ from holds]
  unreadable error := by
    have notUnreadable (cause : FileError) : ¬ tree.Unreadable path cause :=
      fun unreadable => unreadable.not_holdsText contents holds
    simp [notUnreadable]
  unchanged := iff_of_true rfl ⟨sound, contents, holds, kept⟩
  updated removed := by
    refine iff_of_false (by simp) ?_
    intro condition
    rcases condition with ⟨_, other, otherHolds, ⟨line, member, dropped⟩, _⟩
    obtain rfl := holds.unique otherHolds
    exact dropped (kept line member)
  untouched _ := rfl
  rewritten removed updated := by simp at updated

theorem editLaw_of_dropped (sound : rules.defects = []) {contents : String} {after : FileTree}
    {location : Location} (holds : tree.HoldsText path contents)
    (dropped : ∃ line ∈ Line.split contents,
      rules.disposition line.number line.text ≠ .keep)
    (located : tree.locate path = .ok location)
    (rewritten : tree.Rewritten after location
      (Line.render (rules.select (Line.split contents)).retained).toUTF8) :
    EditLaw tree path rules (.ok (.updated (rules.select (Line.split contents)).removed))
      after where
  refused defects := by simp [sound]
  notFound missing := by simp [show tree.entryOf? path = _ from holds]
  unreadable error := by
    have notUnreadable (cause : FileError) : ¬ tree.Unreadable path cause :=
      fun unreadable => unreadable.not_holdsText contents holds
    simp [notUnreadable]
  unchanged := by
    refine iff_of_false (by simp) ?_
    intro condition
    rcases condition with ⟨_, other, otherHolds, kept⟩
    obtain rfl := holds.unique otherHolds
    obtain ⟨line, member, notKept⟩ := dropped
    exact notKept (kept line member)
  updated removed := by
    constructor
    · intro same
      obtain rfl := Outcome.updated.inj (Except.ok.inj same)
      exact ⟨sound, contents, holds, dropped,
        (rules.records_iff (Line.ascending_split contents) _).mpr rfl⟩
    · intro condition
      rcases condition with ⟨_, other, otherHolds, _, records⟩
      obtain rfl := holds.unique otherHolds
      rw [(rules.records_iff (Line.ascending_split contents) _).mp records]
  untouched notUpdated := absurd rfl (notUpdated _)
  rewritten removed _ := by
    refine ⟨location, contents, located, holds, ?_, rewritten.locate_eq⟩
    rw [← Rules.retained_eq_filter]
    exact rewritten

/-- Every edit on every tree follows the law. -/
theorem editLaw_runEdit (tree : FileTree) (path : RawText) (rules : Rules) :
    EditLaw tree path rules (tree.runEdit path rules).1 (tree.runEdit path rules).2 := by
  by_cases sound : rules.defects = []
  · cases found : tree.entryOf? path with
    | none =>
        rw [runEdit_of_missing sound found]
        exact editLaw_of_missing sound found
    | some entry =>
        cases entry with
        | directory =>
            rw [runEdit_of_directory sound found]
            exact editLaw_of_unreadable sound (.directory found)
        | file bytes =>
            by_cases valid : bytes.IsValidUTF8
            · obtain ⟨contents, rfl⟩ := exists_toUTF8_of_isValid valid
              by_cases removed : (rules.select (Line.split contents)).removed = []
              · rw [runEdit_of_kept sound found removed]
                exact editLaw_of_kept sound found (Rules.removed_eq_nil_iff.mp removed)
              · obtain ⟨location, after, located, run, rewritten⟩ :=
                  runEdit_of_removed sound found removed
                rw [run]
                rw [Rules.removed_eq_nil_iff] at removed
                exact editLaw_of_dropped sound found (by simpa using removed) located rewritten
            · rw [runEdit_of_invalid sound found valid]
              exact editLaw_of_unreadable sound (.notText bytes found valid)
  · rw [runEdit_of_defects sound]
    exact editLaw_of_defects sound

end FileTree

end LinePrune
