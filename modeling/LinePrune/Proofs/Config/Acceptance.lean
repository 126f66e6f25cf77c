import LinePrune.Proofs.Config.Loading
import LinePrune.Proofs.Config.Values
import LinePrune.Proofs.Toml.OrderedKeys
import Mathlib.Logic.Function.Basic
import Mathlib.Tactic.MkIffOfInductiveProp
import Mathlib.Tactic.Simproc.ExistsAndEq

namespace LinePrune

theorem Positions.contains_toNat_iff {positions : Positions} {position : Position} :
    positions.contains position.toNat = true ↔ position ∈ positions.members := by
  simp [contains_iff, UInt64.toNat_inj]

namespace Toml.Members

theorem get?_eq_none {key : String} {members : Members} (absent : key ∉ members.map Prod.fst) :
    members.get? key = none := by
  cases found : members.get? key with
  | none => rfl
  | some value => exact absurd (List.mem_map_of_mem (mem_of_get? found)) absent

/-- The first member is found ahead of the others. -/
theorem get?_cons (key : String) (value : Value) (members : Members) :
    (fun other => get? other ((key, value) :: members)) =
      Function.update (fun other => get? other members) key (some value) := by
  funext other
  by_cases same : other = key <;> simp [get?, same]

end Toml.Members

namespace Config

open Toml

section Values

/-- A path in a document is a text. -/
def StatesPath (value : Value) (path : RawText) : Prop :=
  ∃ text : String, value = .text text ∧ path = text

/-- Positions are stated by an array of integers that fit a word. It may have them in any order and
more than once. -/
def StatesPositions (value : Value) (positions : Positions) : Prop :=
  ∃ (kind : ArrayKind) (integers : List Int), value = .array kind (integers.map .integer) ∧
    (∀ integer ∈ integers, 0 ≤ integer ∧ integer < UInt64.size) ∧
    ∀ number : Nat, positions.contains number = true ↔ (number : Int) ∈ integers

/-- Triggers are stated by an array of the same texts. -/
def StatesTriggers (value : Value) (triggers : List String) : Prop :=
  ∃ kind : ArrayKind, value = .array kind (triggers.map .text)

theorem decodePath_eq_ok_iff {value : Value} {path : RawText} :
    decodePath value = .ok path ↔ StatesPath value path := by
  cases value <;> simp [decodePath, StatesPath, eq_comm]

theorem decodeTriggers_eq_ok_iff {value : Value} {triggers : List String} :
    decodeTriggers value = .ok triggers ↔ StatesTriggers value triggers :=
  decodeItems_eq_ok_iff decodeTrigger_eq_ok_iff

theorem decodePositions_eq_ok_iff {value : Value} {positions : Positions} :
    decodePositions value = .ok positions ↔ StatesPositions value positions := by
  rw [decodePositions, map_eq_ok_iff]
  simp only [decodeItems_eq_ok_iff decodePosition_eq_ok_iff]
  constructor
  · rintro ⟨words, ⟨kind, rfl⟩, rfl⟩
    refine ⟨kind, words.map fun word => (word.toNat : Int), ?_, ?_, ?_⟩
    · rw [List.map_map]
      rfl
    · intro integer member
      obtain ⟨word, _, rfl⟩ := List.mem_map.mp member
      exact ⟨Int.natCast_nonneg _, Int.ofNat_lt.mpr word.toNat_lt⟩
    · intro number
      rw [Positions.contains_iff, List.mem_map]
      simp only [Positions.mem_ofList, Int.ofNat_inj]
  · rintro ⟨kind, integers, rfl, inside, same⟩
    refine ⟨integers.map fun integer => .ofNat integer.toNat, ⟨kind, ?_⟩, ?_⟩
    · rw [List.map_map]
      congr 1
      refine List.map_congr_left fun integer member => ?_
      rw [Function.comp_apply, toNat_ofNat_toNat (inside integer member)]
    · apply Positions.eq_of_mem_iff
      intro position
      rw [Positions.mem_ofList, List.mem_map, ← Positions.contains_toNat_iff, same]
      constructor
      · rintro ⟨integer, member, rfl⟩
        rwa [toNat_ofNat_toNat (inside integer member)]
      · intro member
        exact ⟨position.toNat, member, UInt64.ofNat_toNat⟩

end Values

section Fields

/-- What is stated counts, and what is not stated is as before. -/
def Overlays {α : Type} (states : Value → α → Prop) (before : α) : Option Value → α → Prop
  | none, after => after = before
  | some value, after => states value after

@[simp] theorem overlays_none {α : Type} {states : Value → α → Prop} {before after : α} :
    Overlays states before none after ↔ after = before :=
  Iff.rfl

@[simp] theorem overlays_some {α : Type} {states : Value → α → Prop} {before after : α}
    {value : Value} : Overlays states before (some value) after ↔ states value after :=
  Iff.rfl

/-- The rules with every field that is stated in the place of the one before. -/
@[mk_iff] structure OverlaysRules (before : Rules) (field? : String → Option Value)
    (after : Rules) : Prop where
  conditional :
    Overlays StatesPositions before.conditional (field? "conditional") after.conditional
  triggers : Overlays StatesTriggers before.triggers (field? "triggers") after.triggers
  unconditional :
    Overlays StatesPositions before.unconditional (field? "unconditional") after.unconditional

/-- The first three items of an array stand for the fields of rules, as far as there are so many.
No item behind them is looked at. -/
def listedField? (items : List Value) (name : String) : Option Value :=
  if name = "conditional" then items[0]?
  else if name = "triggers" then items[1]?
  else if name = "unconditional" then items[2]?
  else none

/-- Rules are stated by a table without other fields, or by an array. -/
inductive StatesRules : Value → Rules → Prop where
  | table {origin : Origin} {fields : Members} {rules : Rules} :
      (∀ field ∈ fields, field.1 ∈ ["conditional", "triggers", "unconditional"]) →
        OverlaysRules .default (fun name => fields.get? name) rules →
          StatesRules (.table origin fields) rules
  | array {kind : ArrayKind} {items : List Value} {rules : Rules} :
      OverlaysRules .default (listedField? items) rules → StatesRules (.array kind items) rules

@[mk_iff] structure OverlaysConfig (before : Config) (field? : String → Option Value)
    (after : Config) : Prop where
  target : Overlays StatesPath before.target (field? "target") after.target
  rules : Overlays StatesRules before.rules (field? "rules") after.rules

theorem foldlM_cons_eq_ok_iff {σ α : Type} {step : σ → α → Except Mismatch σ} {item : α}
    {rest : List α} {before after : σ} :
    (item :: rest).foldlM step before = .ok after ↔
      ∃ next, step before item = .ok next ∧ rest.foldlM step next = .ok after := by
  rw [List.foldlM_cons]
  cases step before item <;> simp [bind, Except.bind]

/-- If one step overlays one field, steps with distinct fields overlay all of them. -/
theorem foldlM_eq_ok_iff {σ : Type} {step : σ → String → Value → Except Mismatch σ}
    {known : List String} {overlays : σ → (String → Option Value) → σ → Prop} {fields : Members}
    (nothing : ∀ {before after}, overlays before (fun _ => none) after ↔ after = before)
    (one : ∀ {before after name value field?}, (name, value) ∈ fields → field? name = none →
      ((name ∈ known ∧ overlays before (Function.update field? name (some value)) after) ↔
        ∃ next, step before name value = .ok next ∧ overlays next field? after))
    (distinct : (fields.map Prod.fst).Nodup) {before after : σ} :
    fields.foldlM (fun state field => step state field.1 field.2) before = .ok after ↔
      (∀ field ∈ fields, field.1 ∈ known) ∧
        overlays before (fun name => fields.get? name) after := by
  induction fields generalizing before with
  | nil =>
      have none : (fun name => Members.get? name []) = fun _ => none := rfl
      rw [none, nothing]
      simp [pure, Except.pure, eq_comm]
  | cons field rest ih =>
      obtain ⟨name, value⟩ := field
      rw [List.map_cons, List.nodup_cons] at distinct
      -- No later field has this name, so the step decides about it for good.
      have oneBelow {before after name value field?} (member : (name, value) ∈ rest) :=
        @one before after name value field? (List.mem_cons_of_mem _ member)
      rw [foldlM_cons_eq_ok_iff, Members.get?_cons, List.forall_mem_cons, and_assoc, and_left_comm,
        one List.mem_cons_self (Members.get?_eq_none distinct.1)]
      simp only [ih oneBelow distinct.2]
      constructor
      · rintro ⟨next, taken, listed, overlaid⟩
        exact ⟨listed, next, taken, overlaid⟩
      · rintro ⟨listed, next, taken, overlaid⟩
        exact ⟨next, taken, listed, overlaid⟩

theorem overlaysRules_none_iff {before after : Rules} :
    OverlaysRules before (fun _ => none) after ↔ after = before := by
  cases before
  cases after
  simp [overlaysRules_iff]

theorem overlaysRules_update_iff {before after : Rules} {name : String} {value : Value}
    {field? : String → Option Value} (new : field? name = none) :
    (name ∈ ["conditional", "triggers", "unconditional"] ∧
        OverlaysRules before (Function.update field? name (some value)) after) ↔
      ∃ next, decodeRulesField before name value = .ok next ∧
        OverlaysRules next field? after := by
  by_cases conditional : name = "conditional"
  · subst conditional
    simp [decodeRulesField, map_eq_ok_iff, decodePositions_eq_ok_iff, overlaysRules_iff, new]
  by_cases triggers : name = "triggers"
  · subst triggers
    simp [decodeRulesField, map_eq_ok_iff, decodeTriggers_eq_ok_iff, overlaysRules_iff, new,
      and_left_comm]
  by_cases unconditional : name = "unconditional"
  · subst unconditional
    simp [decodeRulesField, map_eq_ok_iff, decodePositions_eq_ok_iff, overlaysRules_iff, new,
      and_assoc, and_comm, and_left_comm]
  · simp [decodeRulesField, conditional, triggers, unconditional]

theorem nodup_zip_rulesFields (items : List Value) :
    ((rulesFields.zip items).map Prod.fst).Nodup := by
  rcases items with _ | ⟨first, _ | ⟨second, _ | ⟨third, rest⟩⟩⟩ <;> simp [rulesFields]

theorem get?_zip_rulesFields (items : List Value) :
    (fun name => Members.get? name (rulesFields.zip items)) = listedField? items := by
  funext name
  rcases items with _ | ⟨first, _ | ⟨second, _ | ⟨third, rest⟩⟩⟩ <;>
    simp [rulesFields, Members.get?, listedField?]

/-- The keys of a table are distinct, and so are the names that stand for the items of an array. -/
theorem decodeRules_eq_ok_iff {value : Value} {rules : Rules} (ordered : value.IsOrdered) :
    decodeRules value = .ok rules ↔ StatesRules value rules := by
  cases value with
  | table origin fields =>
      rw [decodeRules, foldlM_eq_ok_iff overlaysRules_none_iff (fun _ => overlaysRules_update_iff)
        ordered.members.nodup]
      constructor
      · exact fun stated => .table stated.1 stated.2
      · intro stated
        cases stated with
        | table known overlaid => exact ⟨known, overlaid⟩
  | array kind items =>
      have known : ∀ field ∈ rulesFields.zip items,
          field.1 ∈ ["conditional", "triggers", "unconditional"] := by
        intro field member
        exact (List.of_mem_zip member).1
      rw [decodeRules, foldlM_eq_ok_iff overlaysRules_none_iff (fun _ => overlaysRules_update_iff)
        (nodup_zip_rulesFields items), get?_zip_rulesFields]
      constructor
      · exact fun stated => .array stated.2
      · intro stated
        cases stated with
        | array overlaid => exact ⟨known, overlaid⟩
  | _ =>
      constructor
      · intro decoded
        simp [decodeRules] at decoded
      · intro stated
        cases stated

theorem overlaysConfig_none_iff {before after : Config} :
    OverlaysConfig before (fun _ => none) after ↔ after = before := by
  cases before
  cases after
  simp [overlaysConfig_iff]

theorem overlaysConfig_update_iff {before after : Config} {name : String} {value : Value}
    {field? : String → Option Value} (ordered : value.IsOrdered) (new : field? name = none) :
    (name ∈ ["target", "rules"] ∧
        OverlaysConfig before (Function.update field? name (some value)) after) ↔
      ∃ next, decodeField before name value = .ok next ∧ OverlaysConfig next field? after := by
  by_cases target : name = "target"
  · subst target
    simp [decodeField, map_eq_ok_iff, decodePath_eq_ok_iff, overlaysConfig_iff, new]
  by_cases rules : name = "rules"
  · subst rules
    simp [decodeField, map_eq_ok_iff, decodeRules_eq_ok_iff ordered, overlaysConfig_iff, new,
      and_comm]
  · simp [decodeField, target, rules]

theorem decode_eq_ok_iff {members : Members} {config : Config} (ordered : members.IsOrdered) :
    decode members = .ok config ↔
      (∀ member ∈ members, member.1 ∈ ["target", "rules"]) ∧
        OverlaysConfig .default (fun name => members.get? name) config :=
  foldlM_eq_ok_iff overlaysConfig_none_iff
    (fun member => overlaysConfig_update_iff (ordered.values _ member)) ordered.nodup

end Fields

section Documents

/-- A document is accepted as a valid configuration that it states, if it states nothing else. The
default target is not empty, so only a stated one can be. -/
structure Accepts (members : Members) (config : Config) : Prop where
  known : ∀ member ∈ members, member.1 ∈ ["target", "rules"]
  overlays : OverlaysConfig .default (fun name => members.get? name) config
  filled : config.target ≠ ""
  sound : config.rules.defects = []

theorem accepts_iff {members : Members} {config : Config} (ordered : members.IsOrdered) :
    Accepts members config ↔ decode members = .ok config ∧ config.validate = .ok () := by
  rw [decode_eq_ok_iff ordered, validate_eq_ok_iff]
  constructor
  · rintro ⟨known, overlays, filled, sound⟩
    exact ⟨⟨known, overlays⟩, filled, sound⟩
  · rintro ⟨⟨known, overlays⟩, filled, sound⟩
    exact ⟨known, overlays, filled, sound⟩

theorem ofText_eq_ok_iff {path : RawText} {contents : String} {members : Members} {config : Config}
    (parsed : parse? contents = some members) :
    ofText path contents = .ok config ↔ Accepts members config := by
  rw [accepts_iff (isOrdered_of_parse? parsed)]
  simp only [ofText, parsed]
  cases decoded : decode members with
  | error mismatch => simp
  | ok found =>
      cases valid : found.validate with
      | error cause =>
          simp only [valid, Except.ok.injEq, reduceCtorEq, false_iff, not_and]
          rintro rfl
          simp [valid]
      | ok =>
          simp only [valid, Except.ok.injEq]
          constructor
          · rintro rfl
            exact ⟨rfl, valid⟩
          · exact fun same => same.1

/-- A document that states no configuration is told apart from one that states an invalid one. -/
theorem exists_notConfig (path : RawText) {contents : String} {members : Members}
    (parsed : parse? contents = some members) (rejected : ∀ config, decode members ≠ .ok config) :
    ∃ mismatch, ofText path contents = .error (.notConfig path mismatch) := by
  simp only [ofText, parsed]
  cases decoded : decode members with
  | error mismatch => exact ⟨mismatch, rfl⟩
  | ok config => exact absurd decoded (rejected config)

end Documents

/-- What loading makes of a document with these members. -/
structure AcceptanceLaw (tree : FileTree) (path : RawText) (members : Members) : Prop where
  loaded_iff : ∀ config,
    (loadFile path : StateM FileTree (Except LoadError Config)).run tree = (.ok config, tree) ↔
      Accepts members config
  rejected : (∀ config, ¬ Accepts members config) → ∃ error,
    (loadFile path : StateM FileTree (Except LoadError Config)).run tree = (.error error, tree)
  /-- An unknown key is never passed over. -/
  unknown : ∀ member ∈ members, member.1 ∉ ["target", "rules"] → ∃ mismatch,
    (loadFile path : StateM FileTree (Except LoadError Config)).run tree =
      (.error (.notConfig path mismatch), tree)
  unknownInRules : ∀ origin fields, members.get? "rules" = some (.table origin fields) →
    ∀ field ∈ fields, field.1 ∉ ["conditional", "triggers", "unconditional"] → ∃ mismatch,
      (loadFile path : StateM FileTree (Except LoadError Config)).run tree =
        (.error (.notConfig path mismatch), tree)

/-- Every document that is read follows the law. -/
theorem acceptanceLaw_of_parsed {tree : FileTree} {path : RawText} {contents : String}
    {members : Members}
    (holds : tree.entryOf? path = some (.file contents.toUTF8))
    (parsed : parse? contents = some members) : AcceptanceLaw tree path members := by
  have ordered := isOrdered_of_parse? parsed
  have run := FileTree.run_loadFile_of_text holds
  refine ⟨?_, ?_, ?_, ?_⟩
  · intro config
    rw [run, Prod.mk.injEq, and_iff_left rfl, ofText_eq_ok_iff parsed]
  · intro none
    cases taken : ofText path contents with
    | error error => exact ⟨error, by rw [run, taken]⟩
    | ok config => exact absurd ((ofText_eq_ok_iff parsed).mp taken) (none config)
  · intro member listed other
    have rejected : ∀ config, decode members ≠ .ok config := by
      intro config decoded
      exact other (((decode_eq_ok_iff ordered).mp decoded).1 member listed)
    obtain ⟨mismatch, failed⟩ := exists_notConfig path parsed rejected
    exact ⟨mismatch, by rw [run, failed]⟩
  · intro origin fields found field listed other
    have rejected : ∀ config, decode members ≠ .ok config := by
      intro config decoded
      have stated := ((decode_eq_ok_iff ordered).mp decoded).2.rules
      rw [found, overlays_some] at stated
      cases stated with
      | table known _ => exact other (known field listed)
    obtain ⟨mismatch, failed⟩ := exists_notConfig path parsed rejected
    exact ⟨mismatch, by rw [run, failed]⟩

/-- The rules are an array of four items here, the last of which no field asks for. -/
theorem acceptanceLaw_of_listed_rules :
    let contents := "rules = [[7, 3, 7], ['b', 'a', 'b'], [], 1.5]\n"
    let tree : FileTree := ⟨[(["rules.toml"], .file contents.toUTF8)], []⟩
    tree.entryOf? "rules.toml" = some (.file contents.toUTF8) ∧
      ∃ members, parse? contents = some members ∧ AcceptanceLaw tree "rules.toml" members := by
  intro contents tree
  have holds : tree.entryOf? "rules.toml" = some (.file contents.toUTF8) := rfl
  have document : (parse? contents).isSome = true := by decide +kernel
  obtain ⟨members, parsed⟩ := Option.isSome_iff_exists.mp document
  exact ⟨holds, members, parsed, acceptanceLaw_of_parsed holds parsed⟩

end Config

end LinePrune
