import LinePrune.Proofs.Command.Run
import Mathlib.Data.List.Nodup

namespace LinePrune

namespace Choice

/-- The name that a choice begins with. -/
def name : Choice → String
  | .set option _ _ => option.name
  | .showRules => Flag.showRules.name

/-- Every choice can be spelled in one argument. -/
def joined : Choice → Choice
  | .set option value _ => .set option value .joined
  | .showRules => .showRules

/-- A value that can be given in either spelling. -/
def IsUsable : Choice → Prop
  | .set _ value _ => value ≠ "" ∧ value.toList.head? ≠ some (.char '-')
  | .showRules => True

instance : DecidablePred IsUsable
  | .set _ value _ =>
      inferInstanceAs (Decidable (value ≠ "" ∧ value.toList.head? ≠ some (.char '-')))
  | .showRules => .isTrue trivial

theorem name_joined (choice : Choice) : choice.joined.name = choice.name := by
  cases choice <;> rfl

theorem isUsable_joined (choice : Choice) : choice.joined.IsUsable ↔ choice.IsUsable := by
  cases choice <;> rfl

theorem name_eq_option_iff {choice : Choice} {option : ValueOption} :
    choice.name = option.name ↔ ∃ value spelling, choice = .set option value spelling := by
  cases choice with
  | set other value spelling => cases option <;> cases other <;> simp [name, ValueOption.name]
  | showRules => cases option <;> simp [name, ValueOption.name, Flag.name]

theorem name_eq_showRules_iff {choice : Choice} :
    choice.name = Flag.showRules.name ↔ choice = .showRules := by
  cases choice with
  | set option value spelling => cases option <;> simp [name, ValueOption.name, Flag.name]
  | showRules => simp [name]

theorem map_name_joined (choices : List Choice) :
    (choices.map joined).map name = choices.map name := by
  rw [List.map_map]
  exact List.map_congr_left fun choice _ => name_joined choice

theorem set_mem_map_joined_iff {choices : List Choice} {option : ValueOption} {value : RawText} :
    .set option value .joined ∈ choices.map joined ↔
      ∃ spelling, .set option value spelling ∈ choices := by
  rw [List.mem_map]
  constructor
  · rintro ⟨choice, member, same⟩
    cases choice with
    | showRules => simp [joined] at same
    | set other given spelling =>
        simp only [joined, set.injEq, and_true] at same
        obtain ⟨rfl, rfl⟩ := same
        exact ⟨spelling, member⟩
  · rintro ⟨spelling, member⟩
    exact ⟨_, member, rfl⟩

theorem showRules_mem_map_joined_iff (choices : List Choice) :
    .showRules ∈ choices.map joined ↔ .showRules ∈ choices := by
  rw [List.mem_map]
  constructor
  · rintro ⟨choice, member, same⟩
    cases choice with
    | showRules => exact member
    | set option value spelling => simp [joined] at same
  · intro member
    exact ⟨_, member, rfl⟩

end Choice

/-- A text that does not begin with a dash is a word. -/
theorem Argument.ofText_of_head? {text : RawText} (noDash : text.toList.head? ≠ some (.char '-')) :
    ofText text = .word text := by
  rw [ofText]
  split
  next dashes => simp [dashes] at noDash
  next dashes => simp [dashes] at noDash
  next dash => simp [dash] at noDash
  next => rfl

namespace Options

/-- Options hold choices when they have what was chosen and nothing else. -/
structure Holds (options : Options) (choices : List Choice) : Prop where
  values : ∀ option value, options.value? option = some value ↔
    ∃ spelling, .set option value spelling ∈ choices
  shown : options.showRules = true ↔ .showRules ∈ choices

theorem holds_initial : initial.Holds [] where
  values option value := by cases option <;> simp [initial, value?]
  shown := by simp [initial]

variable {options next chosen other : Options} {choice : Choice}
variable {before choices others : List Choice}

/-- Options that hold the same choices, in whatever order and spelling, are the same. -/
theorem Holds.unique (holds : options.Holds choices) (otherHolds : other.Holds others)
    (same : (choices.map Choice.joined).Perm (others.map Choice.joined)) : options = other := by
  have value (option : ValueOption) : options.value? option = other.value? option := by
    refine Option.ext fun value => ?_
    rw [holds.values, otherHolds.values, ← Choice.set_mem_map_joined_iff,
      ← Choice.set_mem_map_joined_iff, same.mem_iff]
  have shown : options.showRules = other.showRules := by
    rw [Bool.eq_iff_iff, holds.shown, otherHolds.shown,
      ← Choice.showRules_mem_map_joined_iff choices,
      ← Choice.showRules_mem_map_joined_iff others, same.mem_iff]
  have target := value .target
  have config := value .config
  cases options
  cases other
  simp_all [value?]

theorem Holds.value?_eq_none_iff (holds : options.Holds before) (option : ValueOption) :
    options.value? option = none ↔ option.name ∉ before.map Choice.name := by
  simp only [Option.eq_none_iff_forall_ne_some, Ne, holds.values, List.mem_map,
    Choice.name_eq_option_iff]
  constructor
  · rintro absent ⟨choice, member, value, spelling, rfl⟩
    exact absent value ⟨spelling, member⟩
  · rintro absent value ⟨spelling, member⟩
    exact absent ⟨_, member, value, spelling, rfl⟩

theorem Holds.showRules_eq_false_iff (holds : options.Holds before) :
    options.showRules = false ↔ Flag.showRules.name ∉ before.map Choice.name := by
  simp only [← Bool.not_eq_true, holds.shown, List.mem_map, Choice.name_eq_showRules_iff,
    exists_eq_right]

/-- The spelling plays no part for a value that can be given in both. -/
theorem choose_set {option : ValueOption} {value : RawText} {spelling : Spelling}
    (usable : (Choice.set option value spelling).IsUsable) :
    options.choose (.set option value spelling) = (options.give option value).toOption := by
  cases spelling with
  | joined => rfl
  | apart => rw [choose, if_pos (Argument.ofText_of_head? usable.2)]

theorem Holds.setValue (holds : options.Holds before) {option : ValueOption} {value : RawText}
    (spelling : Spelling) (free : options.value? option = none) :
    (options.setValue value option).Holds (before ++ [.set option value spelling]) where
  values other given := by
    rw [value?_setValue]
    split
    next same =>
      subst same
      have absent : ∀ spelling, .set other given spelling ∉ before := by
        intro spelling member
        have taken := (holds.values other given).mpr ⟨spelling, member⟩
        simp [free] at taken
      simp [absent, eq_comm]
    next different => simp [holds.values, different]
  shown := by
    have kept : (options.setValue value option).showRules = options.showRules := by
      cases option <;> rfl
    simp [kept, holds.shown]

theorem Holds.showRules (holds : options.Holds before) :
    Holds { options with showRules := true } (before ++ [.showRules]) where
  values option value := by
    have kept : Options.value? { options with showRules := true } option =
        options.value? option := by
      cases option <;> rfl
    simp [kept, holds.values]
  shown := by simp

/-- One more choice is accepted exactly if its name is new, and the options that come of it hold
this choice behind the others. -/
theorem Holds.choose_eq_some_iff (holds : options.Holds before) (usable : choice.IsUsable) :
    options.choose choice = some next ↔
      choice.name ∉ before.map Choice.name ∧ next.Holds (before ++ [choice]) := by
  cases choice with
  | set option value spelling =>
      rw [choose_set usable, toOption_eq_some_iff, give_eq_ok_iff, holds.value?_eq_none_iff,
        Choice.name]
      constructor
      · rintro ⟨new, -, rfl⟩
        exact ⟨new, holds.setValue spelling ((holds.value?_eq_none_iff option).mpr new)⟩
      · rintro ⟨new, nextHolds⟩
        have free := (holds.value?_eq_none_iff option).mpr new
        exact ⟨new, usable.1, nextHolds.unique (holds.setValue spelling free) (.refl _)⟩
  | showRules =>
      rw [choose, Choice.name, ← holds.showRules_eq_false_iff]
      cases shown : options.showRules with
      | true => simp
      | false =>
          rw [if_neg Bool.false_ne_true, Option.some.injEq]
          constructor
          · rintro rfl
            exact ⟨rfl, holds.showRules⟩
          · rintro ⟨-, nextHolds⟩
            exact holds.showRules.unique nextHolds (.refl _)

theorem Holds.exists_append (holds : options.Holds before)
    (new : choice.name ∉ before.map Choice.name) :
    ∃ next : Options, next.Holds (before ++ [choice]) := by
  cases choice with
  | set option value spelling =>
      exact ⟨_, holds.setValue spelling ((holds.value?_eq_none_iff option).mpr new)⟩
  | showRules => exact ⟨_, holds.showRules⟩

/-- There are options for all choices among which no name comes twice. -/
theorem exists_holds (distinct : (choices.map Choice.name).Nodup) :
    ∃ options : Options, options.Holds choices := by
  induction choices using List.reverseRecOn with
  | nil => exact ⟨_, holds_initial⟩
  | append_singleton before choice ih =>
      rw [List.map_append, List.nodup_append_comm] at distinct
      obtain ⟨new, distinctBefore⟩ := List.nodup_cons.mp distinct
      obtain ⟨options, holds⟩ := ih distinctBefore
      exact holds.exists_append new

/-- Choices are accepted one after another as long as no name comes again. -/
theorem Holds.foldlM_choose_eq_some_iff (holds : options.Holds before)
    (distinct : (before.map Choice.name).Nodup) (usable : ∀ choice ∈ choices, choice.IsUsable) :
    choices.foldlM choose options = some chosen ↔
      ((before ++ choices).map Choice.name).Nodup ∧ chosen.Holds (before ++ choices) := by
  induction choices generalizing options before with
  | nil =>
      rw [List.append_nil, and_iff_right distinct]
      constructor
      · intro same
        exact Option.some.inj same ▸ holds
      · intro chosenHolds
        exact congrArg some (holds.unique chosenHolds (.refl _))
  | cons choice rest ih =>
      rw [List.forall_mem_cons] at usable
      have new_iff : ((before ++ [choice]).map Choice.name).Nodup ↔
          choice.name ∉ before.map Choice.name := by
        rw [List.map_append, List.nodup_append_comm]
        exact List.nodup_cons.trans (and_iff_left distinct)
      rw [List.append_cons, List.foldlM_cons, Option.bind_eq_bind, Option.bind_eq_some_iff]
      constructor
      · rintro ⟨next, chose, others⟩
        obtain ⟨new, nextHolds⟩ := (holds.choose_eq_some_iff usable.1).mp chose
        exact (ih nextHolds (new_iff.mpr new) usable.2).mp others
      · rintro ⟨allDistinct, chosenHolds⟩
        have distinctThen : ((before ++ [choice]).map Choice.name).Nodup := by
          rw [List.map_append] at allDistinct
          exact allDistinct.of_append_left
        have new := new_iff.mp distinctThen
        obtain ⟨next, nextHolds⟩ := holds.exists_append new
        exact ⟨next, (holds.choose_eq_some_iff usable.1).mpr ⟨new, nextHolds⟩,
          (ih nextHolds distinctThen usable.2).mpr ⟨allDistinct, chosenHolds⟩⟩

end Options

namespace Request

variable {choices : List Choice} {request : Request}

/-- A command line of usable choices is accepted exactly if no name comes twice, and it asks for a
run with the options that hold them. -/
theorem ofArguments_usable_eq_ok_iff (usable : ∀ choice ∈ choices, choice.IsUsable) :
    ofArguments (choices.flatMap Choice.arguments) = .ok request ↔
      (choices.map Choice.name).Nodup ∧ ∃ options, options.Holds choices ∧
        request = .run options := by
  rw [ofArguments_flatMap_eq_ok_iff]
  simp only [Options.holds_initial.foldlM_choose_eq_some_iff .nil usable, List.nil_append,
    and_assoc, exists_and_left]

end Request

namespace Choice

/-- Choices that differ in their order and their spelling only. -/
def SameOptions (choices others : List Choice) : Prop :=
  (choices.map joined).Perm (others.map joined)

variable {choices others : List Choice}

theorem SameOptions.nodup_iff (same : SameOptions choices others) :
    (choices.map name).Nodup ↔ (others.map name).Nodup := by
  have names := same.map name
  rw [map_name_joined, map_name_joined] at names
  exact names.nodup_iff

theorem SameOptions.isUsable (same : SameOptions choices others)
    (usable : ∀ choice ∈ choices, choice.IsUsable) : ∀ choice ∈ others, choice.IsUsable := by
  intro choice member
  obtain ⟨first, firstMember, equal⟩ :=
    List.mem_map.mp (same.mem_iff.mpr (List.mem_map_of_mem member))
  rw [← isUsable_joined, ← equal, isUsable_joined]
  exact usable first firstMember

end Choice

/-- What becomes of a command line that is made of choices. -/
structure ChoicesLaw (tree : FileTree) (choices : List Choice) : Prop where
  accepted : (choices.map Choice.name).Nodup → ∃ options, options.Holds choices ∧
    tree.runCommand (choices.flatMap Choice.arguments) =
      (Command.runOptions options : StateM FileTree RunResult).run tree
  sameRun : (choices.map Choice.name).Nodup → ∀ others, Choice.SameOptions choices others →
    tree.runCommand (others.flatMap Choice.arguments) =
      tree.runCommand (choices.flatMap Choice.arguments)
  repeated : ¬ (choices.map Choice.name).Nodup →
    (tree.runCommand (choices.flatMap Choice.arguments)).1.exitCode = 2 ∧
      (tree.runCommand (choices.flatMap Choice.arguments)).1.output = "" ∧
        (tree.runCommand (choices.flatMap Choice.arguments)).2 = tree

namespace FileTree

variable {choices : List Choice} {options : Options}

theorem runCommand_of_holds (tree : FileTree) (usable : ∀ choice ∈ choices, choice.IsUsable)
    (distinct : (choices.map Choice.name).Nodup) (holds : options.Holds choices) :
    tree.runCommand (choices.flatMap Choice.arguments) =
      (Command.runOptions options : StateM FileTree RunResult).run tree := by
  have parsed := (Request.ofArguments_usable_eq_ok_iff usable).mpr ⟨distinct, options, holds, rfl⟩
  rw [runCommand_eq, parsed]

/-- Usable choices make the same run in every order and spelling, unless one of them is repeated. -/
theorem choicesLaw_of_usable (tree : FileTree) (usable : ∀ choice ∈ choices, choice.IsUsable) :
    ChoicesLaw tree choices := by
  refine ⟨fun distinct => ?_, fun distinct others same => ?_, fun repeated => ?_⟩
  · obtain ⟨options, holds⟩ := Options.exists_holds distinct
    exact ⟨options, holds, runCommand_of_holds tree usable distinct holds⟩
  · have otherDistinct := same.nodup_iff.mp distinct
    obtain ⟨options, holds⟩ := Options.exists_holds distinct
    obtain ⟨other, otherHolds⟩ := Options.exists_holds otherDistinct
    obtain rfl := holds.unique otherHolds same
    rw [runCommand_of_holds tree usable distinct holds,
      runCommand_of_holds tree (same.isUsable usable) otherDistinct otherHolds]
  · cases parsed : Request.ofArguments (choices.flatMap Choice.arguments) with
    | ok request =>
        exact absurd ((Request.ofArguments_usable_eq_ok_iff usable).mp parsed).1 repeated
    | error cause =>
        rw [runCommand_eq, parsed]
        exact ⟨rfl, rfl, rfl⟩

/-- The target holds an equals sign and a blank, and the options come in the reverse order. -/
theorem choicesLaw_of_reversed_options :
    let choices : List Choice :=
      [.set .target "a=b c" .apart, .showRules, .set .config "own.toml" .joined]
    let tree : FileTree := ⟨[], []⟩
    (∀ choice ∈ choices, choice.IsUsable) ∧ ChoicesLaw tree choices ∧
      tree.runCommand ["--config", "own.toml", "--show-rules", "--target=a=b c"] =
        tree.runCommand ["--target", "a=b c", "--show-rules", "--config=own.toml"] := by
  intro choices tree
  have usable : ∀ choice ∈ choices, choice.IsUsable := by decide
  have law := choicesLaw_of_usable tree usable
  have distinct : (choices.map Choice.name).Nodup := by decide
  have same : Choice.SameOptions choices
      [.set .config "own.toml" .apart, .showRules, .set .target "a=b c" .joined] := by
    unfold Choice.SameOptions
    decide
  exact ⟨usable, law, law.sameRun distinct _ same⟩

end FileTree

end LinePrune
