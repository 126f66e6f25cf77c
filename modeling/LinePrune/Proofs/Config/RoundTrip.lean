import LinePrune.Proofs.Config.Parts

namespace LinePrune.Config

open Toml

/-- Nothing is left out of the written form. -/
theorem keeping_all (config : Config) :
    config.keeping true [.conditional, .triggers, .unconditional] = config :=
  rfl

/-- A configuration that is rendered is what its rendered form is taken for. -/
theorem ofText_of_render {config : Config} {text : String} (rendered : config.render = .ok text)
    (path : RawText) : ofText path text = .ok config := by
  obtain ⟨valid, target, isText, rfl⟩ := render_eq_ok_iff.mp rendered
  obtain ⟨members, parsed, decoded⟩ := exists_decode_of_writesPart (writesPart_write isText)
  rw [keeping_all] at decoded
  simp only [ofText, parsed, decoded, valid]

/-- A text reads back as a configuration when it is the rendered form, ends with one line feed and
no more, and any file that holds it is loaded as that configuration, with no file changed. -/
structure ReadsBack (config : Config) (text : String) : Prop where
  rendered : config.render = .ok text
  endsOnce : ∃ front, text = front ++ "\n" ∧ front.toList.getLast? ≠ some '\n'
  loadedFile : ∀ (tree : FileTree) (path : RawText),
    tree.entryOf? path = some (.file text.toUTF8) →
      (loadFile path : StateM FileTree (Except LoadError Config)).run tree = (.ok config, tree)
  loaded : ∀ (tree : FileTree) (path : RawText),
    tree.entryOf? path = some (.file text.toUTF8) →
      (load path : StateM FileTree (Except LoadError Config)).run tree = (.ok config, tree)

/-- The last line feed stands right behind the bracket that closes the last array. -/
theorem write_closed (target : String) (rules : Rules) :
    ∃ front, write target rules = front ++ "]" ++ "\n" := by
  have last : ∃ body, writePositions rules.unconditional = body ++ "]" :=
    writeArray_closed _
  obtain ⟨body, closed⟩ := last
  rw [write, closed]
  simp only [writeAssignment, ← String.append_assoc]
  exact ⟨_, rfl⟩

/-- Every valid configuration whose target is a text is rendered, and its text reads back. -/
theorem render_readsBack {config : Config} {target : String} (isText : config.target = target)
    (valid : config.validate = .ok ()) : ∃ text, ReadsBack config text := by
  have rendered : config.render = .ok (write target config.rules) :=
    render_eq_ok_iff.mpr ⟨valid, target, isText, rfl⟩
  refine ⟨write target config.rules, rendered, ?_, ?_, ?_⟩
  · obtain ⟨front, closed⟩ := write_closed target config.rules
    exact ⟨front ++ "]", closed, by simp⟩
  · intro tree path holds
    rw [FileTree.run_loadFile_of_text holds, ofText_of_render rendered]
  · intro tree path holds
    rw [FileTree.run_load_of_text holds, ofText_of_render rendered]

/-- A configuration full of quotes, backslashes, controls and large positions. -/
def awkward : Config where
  target := "C:\\\"\"\"a'''\n\t\r\x00\x7f\"\""
  rules :=
    { conditional := .ofList [18446744073709551615, 7]
      triggers := ["'''\\", "\x7d", "\"'", "\x7d", "\x00"]
      unconditional := .ofList [9223372036854775808] }

theorem render_readsBack_awkward :
    awkward.validate = .ok () ∧ ∃ text, ReadsBack awkward text := by
  have valid : awkward.validate = .ok () := rfl
  exact ⟨valid, render_readsBack rfl valid⟩

end LinePrune.Config
