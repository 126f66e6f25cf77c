import LinePrune.Edit
import LinePrune.Proofs.FileTree.Rewriting

namespace LinePrune.FileTree

/-- A sequence goes on with the answer and the tree of its first action. -/
theorem run_bind_eq {α β : Type} {action : StateM FileTree α} {tree after : FileTree} {answer : α}
    (ran : action.run tree = (answer, after)) (next : α → StateM FileTree β) :
    (action >>= next).run tree = (next answer).run after := by
  rw [StateT.run_bind, ran]
  rfl

theorem run_pathExists (tree : FileTree) (path : RawText) :
    (FileAccess.pathExists path : StateM FileTree Bool).run tree =
      (tree.pathExists path, tree) := rfl

theorem run_readText (tree : FileTree) (path : RawText) :
    (FileAccess.readText path : StateM FileTree (Except FileError String)).run tree =
      (tree.readText path, tree) := rfl

/-- A refused write leaves the tree as it was. -/
theorem run_writeText (tree : FileTree) (path : RawText) (contents : String) :
    (FileAccess.writeText path contents : StateM FileTree (Except FileError Unit)).run tree =
      match tree.writeText path contents with
      | .error cause => (.error cause, tree)
      | .ok after => (.ok (), after) := by
  simp only [FileAccess.writeText, StateT.run_bind, StateT.run_get, pure_bind]
  cases tree.writeText path contents with
  | error cause => rfl
  | ok after => rfl

theorem run_read (tree : FileTree) (path : RawText) :
    (Target.read path : StateM FileTree (Except TargetError (List Line))).run tree =
      match tree.readText path with
      | .error cause => (.error (.unreadable path cause), tree)
      | .ok contents => (.ok (Line.split contents), tree) := by
  rw [Target.read, StateT.run_bind, run_readText]
  cases tree.readText path with
  | error cause => rfl
  | ok contents => rfl

theorem run_write (tree : FileTree) (path : RawText) (lines : List Line) :
    (Target.write path lines : StateM FileTree (Except TargetError Nat)).run tree =
      match tree.writeText path (Line.render lines) with
      | .error cause => (.error (.unwritable path cause), tree)
      | .ok after => (.ok (Line.render lines).utf8ByteSize, after) := by
  rw [Target.write, StateT.run_bind, run_writeText]
  cases tree.writeText path (Line.render lines) with
  | error cause => rfl
  | ok after => rfl

/-- The result of an edit on a tree comes with the tree that the edit leaves. -/
def runEdit (tree : FileTree) (path : RawText) (rules : Rules) :
    Except EditError Outcome × FileTree :=
  (edit path rules : StateM FileTree (Except EditError Outcome)).run tree

theorem run_applyToTarget (tree : FileTree) (path : RawText) (rules : Rules) :
    (rules.applyToTarget path : StateM FileTree (Except EditError Outcome)).run tree =
      match tree.readText path with
      | .error cause => (.error (.target (.unreadable path cause)), tree)
      | .ok contents =>
          let selection := rules.select (Line.split contents)
          if selection.removed.isEmpty then (.ok .unchanged, tree)
          else
            match tree.writeText path (Line.render selection.retained) with
            | .error cause => (.error (.target (.unwritable path cause)), tree)
            | .ok after => (.ok (.updated selection.removed), after) := by
  have ran := run_read tree path
  rw [Rules.applyToTarget]
  cases read : tree.readText path with
  | error cause =>
      rw [read] at ran
      rw [run_bind_eq ran]
      rfl
  | ok contents =>
      rw [read] at ran
      rw [run_bind_eq ran]
      dsimp only
      split
      next => rfl
      next =>
        have wrote := run_write tree path (rules.select (Line.split contents)).retained
        cases written : tree.writeText path
            (Line.render (rules.select (Line.split contents)).retained) with
        | error cause =>
            rw [written] at wrote
            rw [run_bind_eq wrote]
            rfl
        | ok after =>
            rw [written] at wrote
            rw [run_bind_eq wrote]
            rfl

variable {tree : FileTree} {path : RawText} {rules : Rules}

theorem runEdit_of_defects (defective : rules.defects ≠ []) :
    tree.runEdit path rules = (.error (.invalidRules rules.defects), tree) := by
  have notEmpty : rules.defects.isEmpty = false := by simpa using defective
  rw [runEdit, edit, notEmpty]
  rfl

theorem runEdit_of_missing (sound : rules.defects = []) (missing : tree.entryOf? path = none) :
    tree.runEdit path rules = (.ok (.notFound path), tree) := by
  rw [runEdit, edit, sound, List.isEmpty_nil, if_pos rfl, StateT.run_bind, run_pathExists,
    pathExists_eq_isSome, missing]
  rfl

/-- Where something stands, sound rules are applied to it. -/
theorem runEdit_of_present (sound : rules.defects = []) {entry : Entry}
    (present : tree.entryOf? path = some entry) :
    tree.runEdit path rules =
      (rules.applyToTarget path : StateM FileTree (Except EditError Outcome)).run tree := by
  rw [runEdit, edit, sound, List.isEmpty_nil, if_pos rfl, StateT.run_bind, run_pathExists,
    pathExists_eq_isSome, present]
  rfl

theorem runEdit_of_directory (sound : rules.defects = [])
    (directory : tree.entryOf? path = some .directory) :
    tree.runEdit path rules = (.error (.target (.unreadable path .isDirectory)), tree) := by
  rw [runEdit_of_present sound directory, run_applyToTarget, readText_of_directory directory]

theorem runEdit_of_invalid (sound : rules.defects = []) {bytes : ByteArray}
    (file : tree.entryOf? path = some (.file bytes)) (invalid : ¬ bytes.IsValidUTF8) :
    tree.runEdit path rules = (.error (.target (.unreadable path .notText)), tree) := by
  rw [runEdit_of_present sound file, run_applyToTarget, readText_of_invalid file invalid]

theorem runEdit_of_kept (sound : rules.defects = []) {contents : String}
    (file : tree.entryOf? path = some (.file contents.toUTF8))
    (kept : (rules.select (Line.split contents)).removed = []) :
    tree.runEdit path rules = (.ok .unchanged, tree) := by
  rw [runEdit_of_present sound file, run_applyToTarget, readText_eq_ok_iff.mpr file]
  simp only [kept, List.isEmpty_nil, ↓reduceIte]

/-- A file that loses a line is rewritten with the lines that it keeps. -/
theorem runEdit_of_removed (sound : rules.defects = []) {contents : String}
    (file : tree.entryOf? path = some (.file contents.toUTF8))
    (removed : (rules.select (Line.split contents)).removed ≠ []) :
    ∃ location after,
      tree.locate path = .ok location ∧
      tree.runEdit path rules =
        (.ok (.updated (rules.select (Line.split contents)).removed), after) ∧
      Rewritten tree after location
        (Line.render (rules.select (Line.split contents)).retained).toUTF8 := by
  obtain ⟨location, located, entry⟩ := entryOf?_eq_some_iff.mp file
  obtain ⟨after, written, rewritten⟩ := writeText_of_file located entry
    (Line.render (rules.select (Line.split contents)).retained)
  refine ⟨location, after, located, ?_, rewritten⟩
  have notEmpty : (rules.select (Line.split contents)).removed.isEmpty = false := by
    simpa using removed
  rw [runEdit_of_present sound file, run_applyToTarget, readText_eq_ok_iff.mpr file]
  simp only [notEmpty, written, Bool.false_eq_true, ↓reduceIte]

end LinePrune.FileTree
