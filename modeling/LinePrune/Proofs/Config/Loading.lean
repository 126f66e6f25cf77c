import LinePrune.Config.Load
import LinePrune.Proofs.Edit.Run

namespace LinePrune

namespace Config

theorem validate_eq_ok_iff {config : Config} :
    config.validate = .ok () ↔ config.target ≠ "" ∧ config.rules.defects = [] := by
  rw [validate]
  split
  next empty => simp [RawText.isEmpty_iff.mp empty]
  next filled =>
    rw [RawText.isEmpty_iff] at filled
    split
    next sound => simp [filled, List.isEmpty_iff.mp sound]
    next defective =>
      rw [List.isEmpty_iff] at defective
      simp [defective]

theorem validate_default : Config.default.validate = .ok () :=
  validate_eq_ok_iff.mpr ⟨by decide, by decide⟩

/-- The written form ends with a line feed by itself. -/
theorem withFinalFeed_write (target : String) (rules : Rules) :
    withFinalFeed (write target rules) = write target rules := by
  have ends : ∃ front, write target rules = front ++ "\n" := by
    simp only [write, Toml.writeAssignment, ← String.append_assoc]
    exact ⟨_, rfl⟩
  obtain ⟨front, same⟩ := ends
  rw [same, withFinalFeed, if_pos (by simp)]

/-- A valid configuration fails to be rendered for one reason only. -/
theorem render_of_valid {config : Config} (valid : config.validate = .ok ()) :
    config.render = match config.target.text? with
      | none => .error .targetNotText
      | some target => .ok (write target config.rules) := by
  unfold render
  cases config.target.text? with
  | none => simp [valid]
  | some target => simp [valid, withFinalFeed_write]

/-- A configuration is rendered exactly when it is valid and its target is a text. -/
theorem render_eq_ok_iff {config : Config} {text : String} :
    config.render = .ok text ↔
      config.validate = .ok () ∧
        ∃ target : String, config.target = target ∧ text = write target config.rules := by
  simp only [← RawText.text?_eq_some_iff]
  rw [render]
  cases config.validate with
  | error cause => simp
  | ok =>
      cases config.target.text? with
      | none => simp
      | some target => simp [withFinalFeed_write, eq_comm]

/-- Only valid configurations are taken from a text. -/
theorem validate_of_ofText {path : RawText} {contents : String} {config : Config}
    (taken : ofText path contents = .ok config) : config.validate = .ok () := by
  rw [ofText] at taken
  cases parsed : Toml.parse? contents with
  | none => simp [parsed] at taken
  | some members =>
      cases decoded : decode members with
      | error mismatch => simp [parsed, decoded] at taken
      | ok found =>
          cases valid : found.validate with
          | error cause => simp [parsed, decoded, valid] at taken
          | ok =>
              simp only [parsed, decoded, valid, Except.ok.injEq] at taken
              exact taken ▸ valid

end Config

namespace FileTree

theorem run_loadFile (tree : FileTree) (path : RawText) :
    (Config.loadFile path : StateM FileTree (Except LoadError Config)).run tree =
      match tree.readText path with
      | .error cause => (.error (.unreadable path cause), tree)
      | .ok contents => (Config.ofText path contents, tree) := by
  rw [Config.loadFile, run_bind_eq (run_readText tree path)]
  cases tree.readText path with
  | error cause => rfl
  | ok contents => rfl

/-- Only a file that exists is asked for its text, and the default configuration is never
refused. -/
theorem run_load (tree : FileTree) (path : RawText) :
    (Config.load path : StateM FileTree (Except LoadError Config)).run tree =
      if tree.pathExists path then
        (Config.loadFile path : StateM FileTree (Except LoadError Config)).run tree
      else (.ok .default, tree) := by
  rw [Config.load, run_bind_eq (run_pathExists tree path), Config.validate_default]
  split
  next => rfl
  next => rfl

/-- A file that holds a text is loaded as that text. -/
theorem run_loadFile_of_text {tree : FileTree} {path : RawText} {contents : String}
    (holds : tree.entryOf? path = some (.file contents.toUTF8)) :
    (Config.loadFile path : StateM FileTree (Except LoadError Config)).run tree =
      (Config.ofText path contents, tree) := by
  rw [run_loadFile, readText_eq_ok_iff.mpr holds]

theorem run_load_of_text {tree : FileTree} {path : RawText} {contents : String}
    (holds : tree.entryOf? path = some (.file contents.toUTF8)) :
    (Config.load path : StateM FileTree (Except LoadError Config)).run tree =
      (Config.ofText path contents, tree) := by
  rw [run_load, pathExists_eq_isSome, holds, Option.isSome_some, if_pos rfl,
    run_loadFile_of_text holds]

end FileTree

end LinePrune
