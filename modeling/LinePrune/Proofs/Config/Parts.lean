import LinePrune.Proofs.Config.Acceptance
import LinePrune.Proofs.Toml.Sections
import LinePrune.Proofs.Toml.WrittenArray
import LinePrune.Proofs.Toml.WrittenDocument
import LinePrune.Proofs.Toml.WrittenNumber
import LinePrune.Proofs.Toml.WrittenText
import Mathlib.Data.List.Nodup

namespace LinePrune.Config

open Toml

/-- The fields of rules stand below the header, and a text may have any of them. -/
inductive RulesField where
  | conditional
  | triggers
  | unconditional
  deriving DecidableEq, Repr

def RulesField.name : RulesField → String
  | .conditional => "conditional"
  | .triggers => "triggers"
  | .unconditional => "unconditional"

section Texts

/-- An array writes the positions of a set in any order and as often as it likes, in any layout. -/
def WritesPositions (positions : Positions) (text : String) : Prop :=
  ∃ listed chars, (∀ position, position ∈ listed ↔ position ∈ positions.members) ∧
    text.toList = '[' :: chars ∧
    LaysOutItems (fun position : Position => toString position.toNat) listed chars

/-- Triggers keep the form that the writer gives them. -/
def RulesField.Writes (rules : Rules) : RulesField → String → Prop
  | .conditional, text => WritesPositions rules.conditional text
  | .triggers, text => text = writeTriggers rules.triggers
  | .unconditional, text => WritesPositions rules.unconditional text

/-- The fields are assigned one after another. -/
inductive WritesFields (rules : Rules) : List RulesField → String → Prop where
  | nothing : WritesFields rules [] ""
  | field {field : RulesField} {text rest : String} {others : List RulesField}
      (writes : field.Writes rules text) (written : WritesFields rules others rest) :
      WritesFields rules (field :: others) (writeAssignment field.name text ++ rest)

/-- The target is assigned ahead of the header or left out. Only a text can be assigned. -/
inductive WritesTarget (config : Config) : Bool → String → Prop where
  | nothing : WritesTarget config false ""
  | target {target : String} (isText : config.target = target) :
      WritesTarget config true (writeAssignment "target" (writeString target))

/-- A text writes a part of a configuration when it is the written form with the target left out or
not, and with the fields that are kept in any order below the header. -/
structure WritesPart (config : Config) (keepsTarget : Bool) (kept : List RulesField)
    (text : String) : Prop where
  distinct : kept.Nodup
  written : ∃ first fields, WritesTarget config keepsTarget first ∧
    WritesFields config.rules kept fields ∧ text = first ++ "\n[rules]\n" ++ fields

/-- The configuration with the default for each member that is not kept. -/
def keeping (config : Config) (keepsTarget : Bool) (kept : List RulesField) : Config where
  target := if keepsTarget then config.target else default.target
  rules :=
    { conditional :=
        if .conditional ∈ kept then config.rules.conditional else Rules.default.conditional
      triggers := if .triggers ∈ kept then config.rules.triggers else Rules.default.triggers
      unconditional :=
        if .unconditional ∈ kept then config.rules.unconditional
        else Rules.default.unconditional }

theorem writesPositions_writePositions (positions : Positions) :
    WritesPositions positions (writePositions positions) := by
  obtain ⟨chars, written, laysOut⟩ := exists_laysOutItems_writeArray
    (fun position : Position => toString position.toNat) positions.members
  exact ⟨positions.members, chars, fun _ => Iff.rfl, written, laysOut⟩

/-- The written form itself leaves nothing out. -/
theorem writesPart_write {config : Config} {target : String} (isText : config.target = target) :
    WritesPart config true [.conditional, .triggers, .unconditional]
      (write target config.rules) where
  distinct := by decide
  written := by
    refine ⟨_, _, .target isText, .field (writesPositions_writePositions _) <| .field rfl <|
      .field (writesPositions_writePositions _) .nothing, ?_⟩
    simp [write, RulesField.name, String.append_assoc]

end Texts

section Values

/-- The value that a field of rules is read as. -/
def RulesField.States (rules : Rules) : RulesField → Value → Prop
  | .conditional, value => StatesPositions value rules.conditional
  | .triggers, value => StatesTriggers value rules.triggers
  | .unconditional, value => StatesPositions value rules.unconditional

/-- The reader puts the positions in order and drops those that it has already. -/
theorem exists_spells_of_writesPositions {positions : Positions} {text : String}
    (writes : WritesPositions positions text) :
    ∃ value, Spells text.toList value ∧ StatesPositions value positions := by
  obtain ⟨listed, chars, same, written, laysOut⟩ := writes
  refine ⟨.array .listed (listed.map fun position => .integer position.toNat), ?_, ?_⟩
  · rw [written]
    exact spells_laysOutItems laysOut fun position _ => spells_toString position.toNat
  · have decoded : decodeItems decodePosition
        (.array .listed (listed.map fun position => .integer position.toNat)) = .ok listed :=
      (decodeItems_eq_ok_iff decodePosition_eq_ok_iff).mpr ⟨.listed, rfl⟩
    have members : Positions.ofList listed = positions :=
      Positions.eq_of_mem_iff fun position => by rw [Positions.mem_ofList, same]
    rw [← decodePositions_eq_ok_iff, decodePositions, decoded, ← members]
    rfl

theorem exists_spells_writeTriggers (triggers : List String) :
    ∃ value, Spells (writeTriggers triggers).toList value ∧ StatesTriggers value triggers :=
  ⟨.array .listed (triggers.map .text),
    spells_writeArray fun trigger _ => spells_writeString trigger, .listed, rfl⟩

theorem RulesField.exists_spells {rules : Rules} {field : RulesField} {text : String}
    (writes : field.Writes rules text) :
    ∃ value, Spells text.toList value ∧ field.States rules value := by
  cases field with
  | conditional => exact exists_spells_of_writesPositions writes
  | triggers =>
      obtain rfl : text = writeTriggers rules.triggers := writes
      exact exists_spells_writeTriggers rules.triggers
  | unconditional => exact exists_spells_of_writesPositions writes

/-- Members state fields when they have their names and their values in the same order. -/
inductive StatesFields (rules : Rules) : List RulesField → Members → Prop where
  | nothing : StatesFields rules [] []
  | field {field : RulesField} {value : Value} {others : List RulesField} {members : Members}
      (states : field.States rules value) (stated : StatesFields rules others members) :
      StatesFields rules (field :: others) ((field.name, value) :: members)

theorem RulesField.isBareKey_name (field : RulesField) : IsBareKey field.name := by
  cases field <;> decide

/-- The induction is on the assignments. -/
theorem exists_laysOut_of_writesFields {rules : Rules} {kept : List RulesField} {text : String}
    (written : WritesFields rules kept text) :
    ∃ members, LaysOut text.toList (assignments members) ∧ StatesFields rules kept members := by
  induction written with
  | nothing => exact ⟨[], .nothing, .nothing⟩
  | @field field text rest others writes written ih =>
      obtain ⟨members, laysOut, stated⟩ := ih
      obtain ⟨value, spells, states⟩ := field.exists_spells writes
      refine ⟨(field.name, value) :: members, ?_, .field states stated⟩
      have laidOut : LaysOut _ (assignments ((field.name, value) :: members)) :=
        .assignment field.isBareKey_name spells laysOut
      simpa [writeAssignment] using laidOut

end Values

section Members

variable {config : Config} {rules : Rules} {keepsTarget : Bool} {kept : List RulesField}
variable {members : Members}

theorem RulesField.name_injective : Function.Injective RulesField.name := by
  intro first second same
  cases first <;> cases second <;> first | rfl | exact absurd same (by decide)

theorem RulesField.name_mem (field : RulesField) :
    field.name ∈ ["conditional", "triggers", "unconditional"] := by
  cases field <;> decide

theorem StatesFields.keys (stated : StatesFields rules kept members) :
    members.map Prod.fst = kept.map RulesField.name := by
  induction stated with
  | nothing => rfl
  | field states stated ih => rw [List.map_cons, List.map_cons, ih]

theorem StatesFields.areNew (stated : StatesFields rules kept members) (distinct : kept.Nodup) :
    AreNew [] members where
  apart _ _ := rfl
  distinct := by
    rw [stated.keys]
    exact distinct.map RulesField.name_injective

theorem StatesFields.exists_mem (stated : StatesFields rules kept members) {field : RulesField}
    (listed : field ∈ kept) :
    ∃ value, (field.name, value) ∈ members ∧ field.States rules value := by
  induction stated with
  | nothing => contradiction
  | @field first value others members states stated ih =>
      rcases List.mem_cons.mp listed with rfl | later
      · exact ⟨value, List.mem_cons_self, states⟩
      · obtain ⟨found, member, foundStates⟩ := ih later
        exact ⟨found, List.mem_cons_of_mem _ member, foundStates⟩

/-- Each field that is kept is found with its value. -/
theorem StatesFields.exists_get? (stated : StatesFields rules kept members)
    (distinct : kept.Nodup) {field : RulesField} (listed : field ∈ kept) :
    ∃ value, (Members.putAll [] members).get? field.name = some value ∧
      field.States rules value := by
  obtain ⟨value, member, states⟩ := stated.exists_mem listed
  exact ⟨value, Members.get?_putAll_of_mem (stated.areNew distinct).distinct member, states⟩

/-- No other field is found. -/
theorem StatesFields.get?_eq_none (stated : StatesFields rules kept members)
    {field : RulesField} (deleted : field ∉ kept) :
    (Members.putAll [] members).get? field.name = none := by
  refine Members.get?_putAll_of_not_mem ?_
  rw [stated.keys, List.mem_map_of_injective RulesField.name_injective]
  exact deleted

theorem StatesFields.known (stated : StatesFields rules kept members) :
    ∀ member ∈ Members.putAll [] members,
      member.1 ∈ ["conditional", "triggers", "unconditional"] := by
  intro member listed
  have key : member.1 ∈ kept.map RulesField.name := by
    rw [← stated.keys]
    rcases Members.mem_putAll listed with new | old
    · exact List.mem_map_of_mem new
    · contradiction
  obtain ⟨field, -, same⟩ := List.mem_map.mp key
  rw [← same]
  exact field.name_mem

/-- What is kept is found, and for what is deleted there is the default. -/
theorem overlays_ite {α : Type} {states : Value → α → Prop} {before given : α}
    {found : Option Value} {isKept : Prop} [Decidable isKept]
    (of_kept : isKept → ∃ value, found = some value ∧ states value given)
    (of_deleted : ¬ isKept → found = none) :
    Overlays states before found (if isKept then given else before) := by
  split
  next yes =>
    obtain ⟨value, rfl, stated⟩ := of_kept yes
    exact stated
  next no => rw [of_deleted no, overlays_none]

theorem StatesFields.overlaysRules (stated : StatesFields config.rules kept members)
    (distinct : kept.Nodup) :
    OverlaysRules .default (fun name => (Members.putAll [] members).get? name)
      (config.keeping keepsTarget kept).rules where
  conditional := overlays_ite (stated.exists_get? distinct) stated.get?_eq_none
  triggers := overlays_ite (stated.exists_get? distinct) stated.get?_eq_none
  unconditional := overlays_ite (stated.exists_get? distinct) stated.get?_eq_none

end Members

section Documents

variable {config : Config} {keepsTarget : Bool} {kept : List RulesField} {text : String}

/-- Members stand ahead of the header when they state the target that is kept. -/
inductive StatesAhead (config : Config) : Bool → Members → Prop where
  | nothing : StatesAhead config false []
  | target {target : String} (isText : config.target = target) :
      StatesAhead config true [("target", .text target)]

variable {ahead : Members}

theorem StatesAhead.areNew (stated : StatesAhead config keepsTarget ahead) : AreNew [] ahead where
  apart _ _ := rfl
  distinct := by cases stated <;> simp

theorem StatesAhead.key (stated : StatesAhead config keepsTarget ahead) :
    ∀ member ∈ ahead, member.1 = "target" := by
  cases stated <;> simp

theorem StatesAhead.get?_rules (stated : StatesAhead config keepsTarget ahead) :
    (Members.putAll [] ahead).get? "rules" = none := by
  cases stated <;> rfl

theorem StatesAhead.overlays (stated : StatesAhead config keepsTarget ahead) :
    Overlays StatesPath default.target ((Members.putAll [] ahead).get? "target")
      (config.keeping keepsTarget kept).target := by
  cases stated with
  | nothing => rfl
  | target isText => exact ⟨_, rfl, isText⟩

theorem exists_laysOut_of_writesPart (part : WritesPart config keepsTarget kept text) :
    ∃ ahead fields, StatesAhead config keepsTarget ahead ∧
      StatesFields config.rules kept fields ∧
      LaysOut text.toList
        (assignments ahead ++ .openTable [] "rules" :: assignments fields) := by
  have targetKey : IsBareKey "target" := by decide
  have rulesKey : IsBareKey "rules" := by decide
  obtain ⟨first, fieldsText, target, written, rfl⟩ := part.written
  obtain ⟨fields, laysOut, stated⟩ := exists_laysOut_of_writesFields written
  have below : LaysOut ("\n[rules]\n" ++ fieldsText).toList
      (.openTable [] "rules" :: assignments fields) := by
    have laidOut : LaysOut _ (.openTable [] "rules" :: assignments fields) :=
      .emptyLine (.header rulesKey laysOut)
    simpa using laidOut
  cases target with
  | nothing => exact ⟨[], fields, .nothing, stated, by simpa [assignments] using below⟩
  | @target target isText =>
      have laidOut : LaysOut _ (.assign [] "target" (.text target) ::
          .openTable [] "rules" :: assignments fields) :=
        .assignment targetKey (spells_writeString target) below
      exact ⟨_, fields, .target isText, stated, by
        simpa [assignments, writeAssignment] using laidOut⟩

/-- The text is read as the configuration with the default for whatever was deleted. -/
theorem exists_decode_of_writesPart (part : WritesPart config keepsTarget kept text) :
    ∃ members, parse? text = some members ∧
      decode members = .ok (config.keeping keepsTarget kept) := by
  obtain ⟨ahead, fields, target, stated, laysOut⟩ := exists_laysOut_of_writesPart part
  have parsed := parse?_laysOut laysOut
  rw [ofStatements_section target.areNew (stated.areNew part.distinct) target.get?_rules] at parsed
  refine ⟨_, parsed, (decode_eq_ok_iff (isOrdered_of_parse? parsed)).mpr ⟨?_, ?_, ?_⟩⟩
  · intro member listed
    rcases Members.mem_put listed with rfl | before
    · simp
    · rcases Members.mem_putAll before with new | old
      · rw [target.key member new]
        exact List.mem_cons_self
      · contradiction
  · rw [Members.get?_put, if_neg (by decide)]
    exact target.overlays
  · rw [Members.get?_put, if_pos rfl]
    exact .table stated.known (stated.overlaysRules part.distinct)

end Documents

end LinePrune.Config
