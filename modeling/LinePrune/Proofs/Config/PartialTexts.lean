import LinePrune.Proofs.Config.RoundTrip

namespace LinePrune.Config

open Toml

/-- What loading answers when it takes a file for a configuration that may not be valid. Either
way no file is changed. -/
structure LoadsAs (tree : FileTree) (path : RawText) (completed : Config) : Prop where
  accepted : completed.validate = .ok () →
    (loadFile path : StateM FileTree (Except LoadError Config)).run tree = (.ok completed, tree) ∧
      (load path : StateM FileTree (Except LoadError Config)).run tree = (.ok completed, tree)
  rejected : completed.validate ≠ .ok () → ∃ error : LoadError,
    (loadFile path : StateM FileTree (Except LoadError Config)).run tree = (.error error, tree) ∧
      (load path : StateM FileTree (Except LoadError Config)).run tree = (.error error, tree) ∧
      completed.rules.defects ≠ [] ∧
      error = .invalid path (.invalidRules completed.rules.defects) ∧
      error.message =
        "validate " ++ path.display ++ ": " ++ Rules.defectsMessage completed.rules.defects

/-- Nothing at all, an empty file and the written defaults stand for the default configuration. -/
inductive StandsForDefault (tree : FileTree) (path : RawText) : Prop where
  | missing (missing : tree.entryOf? path = none)
  | empty (holds : tree.entryOf? path = some (.file "".toUTF8))
  | rendered {text : String} (rendered : default.render = .ok text)
      (holds : tree.entryOf? path = some (.file text.toUTF8))

variable {tree : FileTree} {path : RawText} {config : Config}

/-- A valid configuration has a target, and so has the default. -/
theorem target_keeping_ne {keepsTarget : Bool} {kept : List RulesField}
    (valid : config.validate = .ok ()) :
    (config.keeping keepsTarget kept).target ≠ "" := by
  cases keepsTarget with
  | false => exact (validate_eq_ok_iff.mp validate_default).1
  | true => exact (validate_eq_ok_iff.mp valid).1

theorem loadsAs_of_writesPart (valid : config.validate = .ok ()) {keepsTarget : Bool}
    {kept : List RulesField} {text : String} (part : WritesPart config keepsTarget kept text)
    (holds : tree.entryOf? path = some (.file text.toUTF8)) :
    LoadsAs tree path (config.keeping keepsTarget kept) where
  accepted sound := by
    obtain ⟨members, parsed, decoded⟩ := exists_decode_of_writesPart part
    have taken : ofText path text = .ok (config.keeping keepsTarget kept) := by
      simp only [ofText, parsed, decoded, sound]
    rw [FileTree.run_loadFile_of_text holds, FileTree.run_load_of_text holds, taken]
    exact ⟨rfl, rfl⟩
  rejected unsound := by
    have defective : (config.keeping keepsTarget kept).rules.defects ≠ [] := by
      intro sound
      exact unsound (validate_eq_ok_iff.mpr ⟨target_keeping_ne valid, sound⟩)
    have turnedDown : (config.keeping keepsTarget kept).validate =
        .error (.invalidRules (config.keeping keepsTarget kept).rules.defects) := by
      simp [validate, target_keeping_ne valid, defective]
    obtain ⟨members, parsed, decoded⟩ := exists_decode_of_writesPart part
    have taken : ofText path text =
        .error (.invalid path (.invalidRules (config.keeping keepsTarget kept).rules.defects)) := by
      simp only [ofText, parsed, decoded, turnedDown]
    refine ⟨_, ?_, ?_, defective, rfl, rfl⟩
    · rw [FileTree.run_loadFile_of_text holds, taken]
    · rw [FileTree.run_load_of_text holds, taken]

theorem run_load_of_standsForDefault (stands : StandsForDefault tree path) :
    (load path : StateM FileTree (Except LoadError Config)).run tree = (.ok .default, tree) := by
  cases stands with
  | missing missing =>
      rw [FileTree.run_load, FileTree.pathExists_eq_isSome, missing]
      rfl
  | empty holds =>
      rw [FileTree.run_load_of_text holds]
      rfl
  | rendered rendered holds =>
      rw [FileTree.run_load_of_text holds, ofText_of_render rendered]

/-- A configuration is loaded from its parts when any part of its written form is taken for it with
the defaults filled in, its rendered form being the whole of them. A file without anything to load
is as good as the rendered defaults. -/
structure PartsLaw (config : Config) : Prop where
  whole : ∀ target : String, config.target = target → ∃ text, config.render = .ok text ∧
    WritesPart config true [.conditional, .triggers, .unconditional] text
  loaded : ∀ {keepsTarget : Bool} {kept : List RulesField} {text : String},
    WritesPart config keepsTarget kept text → ∀ {tree : FileTree} {path : RawText},
      tree.entryOf? path = some (.file text.toUTF8) →
        LoadsAs tree path (config.keeping keepsTarget kept)
  defaults : ∀ {tree : FileTree} {path : RawText}, StandsForDefault tree path →
    (load path : StateM FileTree (Except LoadError Config)).run tree = (.ok .default, tree)

/-- Every valid configuration is loaded from its parts. -/
theorem partsLaw_of_valid {config : Config} (valid : config.validate = .ok ()) :
    PartsLaw config where
  whole target isText :=
    ⟨_, render_eq_ok_iff.mpr ⟨valid, target, isText, rfl⟩, writesPart_write isText⟩
  loaded part := loadsAs_of_writesPart valid part
  defaults := run_load_of_standsForDefault

/-- A configuration whose unconditional position is conditional by default. -/
def crossed : Config where
  target := "a.tsx"
  rules :=
    { conditional := .ofList [7]
      triggers := ["]"]
      unconditional := .ofList [3, 410] }

/-- The array has both positions out of order and one of them twice. -/
def crossedText : String :=
  "\n[rules]\nunconditional = [410, 3, 410]\n"

theorem partsLaw_crossed :
    let tree : FileTree := ⟨[(["own.toml"], .file crossedText.toUTF8)], []⟩
    crossed.validate = .ok () ∧ WritesPart crossed false [.unconditional] crossedText ∧
      PartsLaw crossed ∧
      (load "own.toml" : StateM FileTree (Except LoadError Config)).run tree =
        (.error (.invalid "own.toml" (.invalidRules [.overlap 410])), tree) := by
  intro tree
  have valid : crossed.validate = .ok () := rfl
  have noGap : IsGap [] := by decide
  have blank : IsGap [' '] := by decide
  have array : WritesPositions crossed.rules.unconditional "[410, 3, 410]" := by
    refine ⟨[410, 3, 410], _, fun position => ?_, rfl, .comma noGap <| .comma blank <| .last blank⟩
    rw [crossed, Positions.mem_ofList]
    grind
  have part : WritesPart crossed false [.unconditional] crossedText :=
    ⟨by decide, _, _, .nothing, .field array .nothing, rfl⟩
  have law := partsLaw_of_valid valid
  have holds : tree.entryOf? "own.toml" = some (.file crossedText.toUTF8) := rfl
  have overlap : (crossed.keeping false [.unconditional]).rules.defects = [.overlap 410] := by
    decide
  have unsound : (crossed.keeping false [.unconditional]).validate ≠ .ok () := by decide
  obtain ⟨error, -, run, -, same, -⟩ := (law.loaded part holds).rejected unsound
  rw [same, overlap] at run
  exact ⟨valid, part, law, run⟩

end LinePrune.Config
