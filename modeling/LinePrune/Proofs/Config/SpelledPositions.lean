import LinePrune.Proofs.Config.RoundTrip
import LinePrune.Proofs.Toml.SpelledInteger
import LinePrune.Proofs.Toml.WrittenNumber

namespace LinePrune.Config

open Toml

section Texts

/-- The text has one unconditional position, which is written as the spelling says. -/
def unconditionalText (spelling : String) : String :=
  "[rules]\n" ++ writeAssignment "conditional" "[]" ++
    writeAssignment "unconditional" ("[" ++ spelling ++ "]")

/-- The members below the header of the text. -/
def unconditionalFields (number : Int) : Members :=
  [("conditional", .array .listed []), ("unconditional", .array .listed [.integer number])]

variable {spelling : String} {number : Int}

theorem laysOut_unconditionalText (spelled : SpellsInteger spelling.toList number) :
    LaysOut (unconditionalText spelling).toList
      (.openTable [] "rules" :: assignments (unconditionalFields number)) := by
  have rulesKey : IsBareKey "rules" := by decide
  have conditionalKey : IsBareKey "conditional" := by decide
  have unconditionalKey : IsBareKey "unconditional" := by decide
  have noGap : IsGap [] := by decide
  have nothing : Spells ['[', ']'] (.array .listed []) :=
    @spells_laysOutItems String id .text [] _ (.close noGap) (by simp)
  have single : Spells ('[' :: (spelling.toList ++ [']'])) (.array .listed [.integer number]) :=
    @spells_laysOutItems String id (fun _ => .integer number) [spelling] _ (.last noGap)
      (by simpa using spelled.spells)
  have laidOut : LaysOut _ (.openTable [] "rules" :: assignments (unconditionalFields number)) :=
    .header rulesKey <| .assignment conditionalKey nothing <|
      .assignment unconditionalKey single .nothing
  simpa [unconditionalText, writeAssignment] using laidOut

theorem parse?_unconditionalText (spelled : SpellsInteger spelling.toList number) :
    parse? (unconditionalText spelling) =
      some [("rules", .table .header (unconditionalFields number))] := by
  have nothingAhead : AreNew [] [] := ⟨fun _ _ => rfl, .nil⟩
  have areNew : AreNew [] (unconditionalFields number) :=
    ⟨fun _ _ => rfl, by simp [unconditionalFields]⟩
  -- A table keeps its keys in ascending order, and the text has them in this order already.
  have inOrder : Members.putAll [] (unconditionalFields number) = unconditionalFields number := by
    have later : ¬ "unconditional" < "conditional" ∧ "unconditional" ≠ "conditional" := by decide
    simp only [unconditionalFields, Members.putAll, List.foldl_cons, List.foldl_nil, Members.put,
      if_neg later.1, if_neg later.2]
  have stated := @ofStatements_section "rules" _ _ nothingAhead areNew rfl
  rw [inOrder] at stated
  exact (parse?_laysOut (laysOut_unconditionalText spelled)).trans stated

end Texts

section Positions

/-- The configuration that has one unconditional position, and its target and triggers by
default. -/
def unconditionalAt (position : Position) : Config where
  target := default.target
  rules :=
    { conditional := .empty
      triggers := Rules.default.triggers
      unconditional := .ofList [position] }

theorem decode_unconditionalFields (number : Int) :
    decode [("rules", .table .header (unconditionalFields number))] =
      (decodePosition (.integer number)).map unconditionalAt := by
  simp only [decode, decodeField, decodeRules, decodeRulesField, decodePositions, decodeItems,
    unconditionalFields, List.foldlM_cons, List.foldlM_nil, List.mapM_cons, List.mapM_nil,
    String.reduceEq, ↓reduceIte, bind_pure_comp, map_pure, bind_pure]
  cases decodePosition (.integer number) <;> rfl

theorem validate_unconditionalAt {position : Position} (nonzero : position ≠ 0) :
    (unconditionalAt position).validate = .ok () := by
  have notZero : (Positions.ofList [position]).contains 0 = false := by
    rw [← Bool.not_eq_true, Positions.contains_iff]
    rintro ⟨other, member, zero⟩
    rw [Positions.mem_ofList, List.mem_singleton] at member
    exact nonzero (member ▸ UInt64.toNat_inj.mp zero)
  have triggers : ∀ trigger ∈ Rules.default.triggers, Rules.triggerDefect? trigger = none := by
    decide
  refine validate_eq_ok_iff.mpr ⟨(validate_eq_ok_iff.mp validate_default).1, ?_⟩
  exact Rules.defects_eq_nil_iff.mpr ⟨rfl, notZero, rfl, triggers, fun listed => absurd rfl listed⟩

/-- A number is a position, or zero, or no word at all. -/
theorem position_cases (number : Int) :
    (∃ position : Position, position ≠ 0 ∧ number = position.toNat) ∨ number = 0 ∨
      number < 0 ∨ 2 ^ 64 ≤ number := by
  by_cases inside : 0 ≤ number ∧ number < UInt64.size
  · have back := toNat_ofNat_toNat inside
    by_cases zero : UInt64.ofNat number.toNat = 0
    · rw [zero] at back
      exact .inr (.inl back.symm)
    · exact .inl ⟨_, zero, back.symm⟩
  · have size : (UInt64.size : Int) = 2 ^ 64 := rfl
    omega

/-- What no word holds is taken for no position. -/
theorem exists_mismatch_of_outside {number : Int} (outside : number < 0 ∨ 2 ^ 64 ≤ number) :
    ∃ mismatch, decodePosition (.integer number) = .error mismatch := by
  cases taken : decodePosition (.integer number) with
  | error mismatch => exact ⟨mismatch, rfl⟩
  | ok position =>
      have same := Value.integer.inj (decodePosition_eq_ok_iff.mp taken)
      have bound := position.toNat_lt
      omega

end Positions

section Answers

variable {spelling : String} {number : Int}

theorem exists_decode_of_spelled (spelled : SpellsInteger spelling.toList number) :
    ∃ members, parse? (unconditionalText spelling) = some members ∧
      decode members = (decodePosition (.integer number)).map unconditionalAt :=
  ⟨_, parse?_unconditionalText spelled, decode_unconditionalFields number⟩

theorem ofText_of_position {position : Position} (nonzero : position ≠ 0)
    (spelled : SpellsInteger spelling.toList position.toNat) (path : RawText) :
    ofText path (unconditionalText spelling) = .ok (unconditionalAt position) := by
  obtain ⟨members, parsed, decoded⟩ := exists_decode_of_spelled spelled
  rw [decodePosition_eq_ok_iff.mpr rfl, Except.map] at decoded
  simp only [ofText, parsed, decoded, validate_unconditionalAt nonzero]

theorem ofText_of_zero (spelled : SpellsInteger spelling.toList 0) (path : RawText) :
    ofText path (unconditionalText spelling) =
      .error (.invalid path (.invalidRules [.zeroUnconditional])) := by
  have invalid : (unconditionalAt 0).validate = .error (.invalidRules [.zeroUnconditional]) := rfl
  have taken : decodePosition (.integer 0) = .ok 0 := decodePosition_eq_ok_iff.mpr rfl
  obtain ⟨members, parsed, decoded⟩ := exists_decode_of_spelled spelled
  rw [taken, Except.map] at decoded
  simp only [ofText, parsed, decoded, invalid]

theorem ofText_of_outside (outside : number < 0 ∨ 2 ^ 64 ≤ number)
    (spelled : SpellsInteger spelling.toList number) (path : RawText) :
    ∃ mismatch, ofText path (unconditionalText spelling) = .error (.notConfig path mismatch) := by
  obtain ⟨mismatch, turnedDown⟩ := exists_mismatch_of_outside outside
  obtain ⟨members, parsed, decoded⟩ := exists_decode_of_spelled spelled
  rw [turnedDown, Except.map] at decoded
  exact ⟨mismatch, by simp only [ofText, parsed, decoded]⟩

/-- No number is taken for another one. -/
theorem ofText_spelled_eq_ok_iff (spelled : SpellsInteger spelling.toList number) {path : RawText}
    {config : Config} :
    ofText path (unconditionalText spelling) = .ok config ↔
      ∃ position : Position, position ≠ 0 ∧ number = position.toNat ∧
        unconditionalAt position = config := by
  constructor
  · intro taken
    rcases position_cases number with ⟨position, nonzero, rfl⟩ | rfl | beyond
    · rw [ofText_of_position nonzero spelled] at taken
      exact ⟨position, nonzero, rfl, Except.ok.inj taken⟩
    · rw [ofText_of_zero spelled] at taken
      contradiction
    · obtain ⟨mismatch, turnedDown⟩ := ofText_of_outside beyond spelled path
      rw [turnedDown] at taken
      contradiction
  · rintro ⟨position, nonzero, rfl, rfl⟩
    exact ofText_of_position nonzero spelled path

end Answers

section Law

/-- A configuration has only one position when that is unconditional, nothing is conditional, and
the rest is as by default. -/
structure HasOnly (config : Config) (number : Int) : Prop where
  target : config.target = default.target
  conditional : config.rules.conditional.members = []
  triggers : config.rules.triggers = Rules.default.triggers
  unconditional :
    config.rules.unconditional.members.map (fun position => (position.toNat : Int)) = [number]

/-- A configuration writes a number back when its rendered form ends with a spelling of it, and any
file with that form is loaded as the configuration. -/
structure WritesBack (config : Config) (number : Int) (text : String) : Prop where
  rendered : config.render = .ok text
  spelled : ∃ front spelling, SpellsInteger spelling.toList number ∧
    text = front ++ writeAssignment "unconditional" ("[" ++ spelling ++ "]")
  loaded : ∀ (tree : FileTree) (path : RawText),
    tree.entryOf? path = some (.file text.toUTF8) →
      (loadFile path : StateM FileTree (Except LoadError Config)).run tree = (.ok config, tree)

/-- Loading never wraps a number or cuts it off. Zero and whatever no word holds are turned down. -/
structure PositionLaw (tree : FileTree) (path : RawText) (number : Int) : Prop where
  load_eq : (load path : StateM FileTree (Except LoadError Config)).run tree =
    (loadFile path : StateM FileTree (Except LoadError Config)).run tree
  loaded_iff : (∃ config,
      (loadFile path : StateM FileTree (Except LoadError Config)).run tree = (.ok config, tree)) ↔
    1 ≤ number ∧ number ≤ 2 ^ 64 - 1
  loaded : ∀ {config : Config} {after : FileTree},
    (loadFile path : StateM FileTree (Except LoadError Config)).run tree = (.ok config, after) →
      HasOnly config number ∧ ∃ text, WritesBack config number text
  zero : number = 0 →
    (loadFile path : StateM FileTree (Except LoadError Config)).run tree =
      (.error (.invalid path (.invalidRules [.zeroUnconditional])), tree)
  outside : number < 0 ∨ 2 ^ 64 ≤ number → ∃ mismatch,
    (loadFile path : StateM FileTree (Except LoadError Config)).run tree =
      (.error (.notConfig path mismatch), tree)

theorem hasOnly_unconditionalAt (position : Position) :
    HasOnly (unconditionalAt position) position.toNat :=
  ⟨rfl, rfl, rfl, rfl⟩

theorem exists_writesBack_unconditionalAt {position : Position} (nonzero : position ≠ 0) :
    ∃ text, WritesBack (unconditionalAt position) position.toNat text := by
  have valid := validate_unconditionalAt nonzero
  have rendered := render_eq_ok_iff.mpr ⟨valid, _, rfl, rfl⟩
  refine ⟨_, rendered, ?_, ?_⟩
  · exact ⟨_, toString position.toNat, spellsInteger_toString position.toNat, rfl⟩
  · intro tree path holds
    rw [FileTree.run_loadFile_of_text holds, ofText_of_render rendered]

variable {tree : FileTree} {path : RawText} {spelling : String} {number : Int}

/-- Every spelling of an integer is loaded as that integer, or not at all. -/
theorem positionLaw_of_spelled (spelled : SpellsInteger spelling.toList number)
    (holds : tree.entryOf? path = some (.file (unconditionalText spelling).toUTF8)) :
    PositionLaw tree path number := by
  have run := FileTree.run_loadFile_of_text holds
  have loads {config : Config} {after : FileTree} :
      (loadFile path : StateM FileTree (Except LoadError Config)).run tree = (.ok config, after) ↔
        ofText path (unconditionalText spelling) = .ok config ∧ tree = after := by
    rw [run]
    exact Prod.mk_inj
  refine ⟨(FileTree.run_load_of_text holds).trans run.symm, ⟨?_, ?_⟩, ?_, ?_, ?_⟩
  · rintro ⟨config, loaded⟩
    obtain ⟨position, nonzero, rfl, -⟩ := (ofText_spelled_eq_ok_iff spelled).mp (loads.mp loaded).1
    have bound := position.toNat_lt
    have positive : position.toNat ≠ 0 := fun zero => nonzero (UInt64.toNat_inj.mp zero)
    omega
  · intro within
    obtain ⟨position, nonzero, rfl⟩ := (position_cases number).resolve_right (by omega)
    exact ⟨_, loads.mpr ⟨ofText_of_position nonzero spelled path, rfl⟩⟩
  · intro config after loaded
    obtain ⟨position, nonzero, rfl, rfl⟩ :=
      (ofText_spelled_eq_ok_iff spelled).mp (loads.mp loaded).1
    exact ⟨hasOnly_unconditionalAt position, exists_writesBack_unconditionalAt nonzero⟩
  · rintro rfl
    rw [run, ofText_of_zero spelled]
  · intro beyond
    obtain ⟨mismatch, turnedDown⟩ := ofText_of_outside beyond spelled path
    exact ⟨mismatch, by rw [run, turnedDown]⟩

/-- The largest word may be written in sixteen hexadecimal digits of either case. -/
theorem positionLaw_of_largest_word :
    let text := "[rules]\nconditional = []\nunconditional = [0xFFFF_ffff_FFFF_ffff]\n"
    let tree : FileTree := ⟨[(["own.toml"], .file text.toUTF8)], []⟩
    SpellsInteger "0xFFFF_ffff_FFFF_ffff".toList 18446744073709551615 ∧
      tree.entryOf? "own.toml" =
        some (.file (unconditionalText "0xFFFF_ffff_FFFF_ffff").toUTF8) ∧
      PositionLaw tree "own.toml" 18446744073709551615 ∧
      ∃ config,
        (loadFile "own.toml" : StateM FileTree (Except LoadError Config)).run tree =
          (.ok config, tree) := by
  intro text tree
  have spelled : SpellsInteger "0xFFFF_ffff_FFFF_ffff".toList 18446744073709551615 :=
    integer?_eq_some_iff.mp rfl
  have holds : tree.entryOf? "own.toml" =
      some (.file (unconditionalText "0xFFFF_ffff_FFFF_ffff").toUTF8) := rfl
  have law := positionLaw_of_spelled spelled holds
  exact ⟨spelled, holds, law, law.loaded_iff.mpr (by decide)⟩

end Law

end LinePrune.Config
