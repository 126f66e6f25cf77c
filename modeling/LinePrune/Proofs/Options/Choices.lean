import LinePrune.Options

namespace LinePrune

namespace Options

/-- No option has an empty value. -/
def Filled (options : Options) : Prop :=
  ∀ option, options.value? option ≠ some ("" : RawText)

theorem filled_initial : initial.Filled := by
  intro option
  cases option <;> simp [initial, value?]

theorem give_eq_ok_iff {options next : Options} {option : ValueOption} {value : RawText} :
    options.give option value = .ok next ↔
      options.value? option = none ∧ value ≠ "" ∧ next = options.setValue value option := by
  rw [give]
  split
  next given => simp [Option.isSome_iff_ne_none.mp given]
  next free =>
    rw [Bool.not_eq_true, Option.isSome_eq_false_iff, Option.isNone_iff_eq_none] at free
    split
    next empty => simp [RawText.isEmpty_iff.mp empty]
    next filled =>
      rw [RawText.isEmpty_iff] at filled
      simp [free, filled, eq_comm]

theorem value?_setValue (options : Options) (value : RawText) (option other : ValueOption) :
    (options.setValue value option).value? other =
      if other = option then some value else options.value? other := by
  cases option <;> cases other <;> rfl

theorem Filled.give {options next : Options} {option : ValueOption} {value : RawText}
    (filled : options.Filled) (given : options.give option value = .ok next) : next.Filled := by
  obtain ⟨_, notEmpty, rfl⟩ := give_eq_ok_iff.mp given
  intro other
  rw [value?_setValue]
  split
  next => simpa using notEmpty
  next => exact filled other

theorem Filled.showRules {options : Options} (filled : options.Filled) (shown : Bool) :
    Filled { options with showRules := shown } := by
  intro option
  have known := filled option
  cases option <;> exact known

theorem Filled.settle {options next : Options} {pending : Pending} (filled : options.Filled)
    (settled : options.settle pending = .ok next) : next.Filled := by
  cases pending with
  | nothing => exact Except.ok.inj settled ▸ filled
  | awaiting option => simp [Options.settle] at settled
  | given option value => exact filled.give settled

end Options

namespace Request

open Options

/-- The options of a run are what is settled at its last argument. -/
theorem map_run_eq_ok_iff {settled : Except UsageError Options} {request : Request} :
    settled.map run = .ok request ↔ ∃ options, settled = .ok options ∧ request = run options := by
  cases settled with
  | error cause => simp [Except.map]
  | ok options => simp [Except.map, eq_comm]

theorem filled_of_settle {options chosen : Options} {pending : Pending} (filled : options.Filled)
    (read : (options.settle pending).map run = .ok (run chosen)) : chosen.Filled := by
  obtain ⟨settled, settles, same⟩ := map_run_eq_ok_iff.mp read
  exact Request.run.inj same ▸ filled.settle settles

theorem filled_of_ofArgumentsFrom {arguments : List RawText} {options chosen : Options}
    {pending : Pending} (filled : options.Filled)
    (read : ofArgumentsFrom options pending arguments = .ok (.run chosen)) : chosen.Filled := by
  induction arguments generalizing options pending with
  | nil => exact filled_of_settle filled read
  | cons text rest ih =>
      rw [ofArgumentsFrom] at read
      cases argument : Argument.ofText text with
      | unknownOption shown => simp [argument] at read
      | endOfOptions =>
          cases rest with
          | nil => exact filled_of_settle filled (by simpa [argument, ofRest] using read)
          | cons next others => simp [argument, ofRest] at read
      | word value =>
          cases pending with
          | nothing => simp [argument] at read
          | given option other => simp [argument] at read
          | awaiting option => exact ih filled (by simpa [argument] using read)
      | option option value =>
          cases settles : options.settle pending with
          | error cause => simp [argument, settles] at read
          | ok settled =>
              cases value with
              | none => exact ih (filled.settle settles) (by simpa [argument, settles] using read)
              | some value =>
                  cases gives : settled.give option value with
                  | error cause => simp [argument, settles, gives] at read
                  | ok given =>
                      exact ih ((filled.settle settles).give gives)
                        (by simpa [argument, settles, gives] using read)
      | flag flag value =>
          cases value with
          | some value => simp [argument] at read
          | none =>
              cases settles : options.settle pending with
              | error cause => simp [argument, settles] at read
              | ok settled =>
                  cases flag with
                  | help => simp [argument, settles] at read
                  | version => simp [argument, settles] at read
                  | showRules =>
                      cases shown : settled.showRules with
                      | true => simp [argument, settles, shown] at read
                      | false =>
                          exact ih ((filled.settle settles).showRules true)
                            (by simpa [argument, settles, shown] using read)

/-- A run is never asked for with an empty value. -/
theorem filled_of_ofArguments {arguments : List RawText} {options : Options}
    (read : ofArguments arguments = .ok (.run options)) : options.Filled :=
  filled_of_ofArgumentsFrom filled_initial read

end Request

/-- A value is spelled as an argument of its own or behind an equals sign. -/
inductive Spelling where
  | apart
  | joined
  deriving DecidableEq, Repr

/-- A choice is one option of a run, as somebody spells it. -/
inductive Choice where
  | set (option : ValueOption) (value : RawText) (spelling : Spelling)
  | showRules
  deriving DecidableEq, Repr

def Choice.arguments : Choice → List RawText
  | .set option value .apart => [option.name, value]
  | .set option value .joined => [option.name ++ "=" ++ value]
  | .showRules => [Flag.showRules.name]

namespace Argument

theorem ofText_name (option : ValueOption) : ofText option.name = .option option none := by
  cases option <;> rfl

theorem ofText_showRules : ofText Flag.showRules.name = .flag .showRules none := rfl

/-- The text behind the name and the equals sign is the value, whatever it holds. -/
theorem ofText_joined (option : ValueOption) (value : RawText) :
    ofText (option.name ++ "=" ++ value) = .option option (some value) := by
  cases option <;> rfl

end Argument

namespace Options

/-- What a choice makes of the options so far. Choices that a command line cannot hold, or not
behind the others, make nothing of them. -/
def choose (options : Options) : Choice → Option Options
  | .set option value .joined => (options.give option value).toOption
  | .set option value .apart =>
      if Argument.ofText value = .word value then (options.give option value).toOption else none
  | .showRules => if options.showRules then none else some { options with showRules := true }

theorem toOption_eq_some_iff {settled : Except UsageError Options} {options : Options} :
    settled.toOption = some options ↔ settled = .ok options := by
  cases settled <;> simp [Except.toOption]

end Options

namespace Argument

theorem ofLong_ne_word (parts : List RawChar) (word : RawText) : ofLong parts ≠ .word word := by
  simp only [ofLong]
  repeat' split
  all_goals nofun

theorem ofShort_ne_word (parts : List RawChar) (word : RawText) : ofShort parts ≠ .word word := by
  fun_cases ofShort parts
  all_goals nofun

/-- A word is the argument itself. -/
theorem eq_of_ofText_eq_word {text word : RawText} (read : ofText text = .word word) :
    word = text := by
  rw [ofText] at read
  split at read
  next => contradiction
  next => exact absurd read (ofLong_ne_word _ word)
  next => exact absurd read (ofShort_ne_word _ word)
  next => exact (Argument.word.inj read).symm

end Argument

namespace Request

open Options

variable {options : Options} {pending : Pending} {request : Request} {rest : List RawText}

theorem ofArgumentsFrom_joined_eq_ok_iff {option : ValueOption} {value : RawText} :
    ofArgumentsFrom options pending ((option.name ++ "=" ++ value) :: rest) = .ok request ↔
      ∃ settled, options.settle pending = .ok settled ∧ ∃ given,
        settled.give option value = .ok given ∧
          ofArgumentsFrom given .nothing rest = .ok request := by
  rw [ofArgumentsFrom, Argument.ofText_joined]
  cases options.settle pending with
  | error cause => simp
  | ok settled =>
      cases gives : settled.give option value with
      | error cause => simp [gives]
      | ok given => simp [gives]

/-- Behind an option that waits for its value only a word can stand. -/
theorem ofArgumentsFrom_awaiting_eq_ok_iff {option : ValueOption} {value : RawText} :
    ofArgumentsFrom options (.awaiting option) (value :: rest) = .ok request ↔
      Argument.ofText value = .word value ∧
        ofArgumentsFrom options (.given option value) rest = .ok request := by
  rw [ofArgumentsFrom]
  cases argument : Argument.ofText value with
  | unknownOption shown => simp
  | endOfOptions => cases rest <;> simp [ofRest, settle, Except.map]
  | word word =>
      obtain rfl := Argument.eq_of_ofText_eq_word argument
      simp
  | option other value => simp [settle]
  | flag flag value => cases value <;> simp [settle]

theorem ofArgumentsFrom_apart_eq_ok_iff {option : ValueOption} {value : RawText} :
    ofArgumentsFrom options pending (option.name :: value :: rest) = .ok request ↔
      ∃ settled, options.settle pending = .ok settled ∧
        Argument.ofText value = .word value ∧
          ofArgumentsFrom settled (.given option value) rest = .ok request := by
  rw [ofArgumentsFrom, Argument.ofText_name]
  cases options.settle pending with
  | error cause => simp
  | ok settled => simp [ofArgumentsFrom_awaiting_eq_ok_iff]

theorem ofArgumentsFrom_showRules_eq_ok_iff :
    ofArgumentsFrom options pending (Flag.showRules.name :: rest) = .ok request ↔
      ∃ settled, options.settle pending = .ok settled ∧ settled.showRules = false ∧
        ofArgumentsFrom { settled with showRules := true } .nothing rest = .ok request := by
  rw [ofArgumentsFrom, Argument.ofText_showRules]
  cases options.settle pending with
  | error cause => simp
  | ok settled => cases shown : settled.showRules <;> simp [shown]

/-- Choices are read one by one, and in no other case is a command line made of them accepted. -/
theorem ofArgumentsFrom_flatMap_eq_ok_iff {choices : List Choice} :
    ofArgumentsFrom options pending (choices.flatMap Choice.arguments) = .ok request ↔
      ∃ settled, options.settle pending = .ok settled ∧ ∃ chosen,
        choices.foldlM choose settled = some chosen ∧ request = .run chosen := by
  induction choices generalizing options pending with
  | nil =>
      rw [List.flatMap_nil, ofArgumentsFrom, map_run_eq_ok_iff]
      simp
  | cons choice rest ih =>
      simp only [List.flatMap_cons, List.foldlM_cons, Option.bind_eq_bind, Option.bind_eq_some_iff]
      cases choice with
      | showRules =>
          rw [Choice.arguments, List.singleton_append, ofArgumentsFrom_showRules_eq_ok_iff]
          refine exists_congr fun settled => and_congr_right fun _ => ?_
          rw [ih]
          cases shown : settled.showRules <;> simp [settle, choose, shown]
      | set option value spelling =>
          cases spelling with
          | joined =>
              rw [Choice.arguments, List.singleton_append, ofArgumentsFrom_joined_eq_ok_iff]
              refine exists_congr fun settled => and_congr_right fun _ => ?_
              simp only [ih, settle, choose, toOption_eq_some_iff]
              cases settled.give option value <;> simp
          | apart =>
              rw [Choice.arguments, List.cons_append, List.singleton_append,
                ofArgumentsFrom_apart_eq_ok_iff]
              refine exists_congr fun settled => and_congr_right fun _ => ?_
              by_cases word : Argument.ofText value = .word value
              · simp only [ih, settle, choose, word, ↓reduceIte, toOption_eq_some_iff, true_and]
                cases settled.give option value <;> simp
              · simp [choose, word]

/-- A command line of choices asks for a run, and for no other one than they make together. -/
theorem ofArguments_flatMap_eq_ok_iff {choices : List Choice} :
    ofArguments (choices.flatMap Choice.arguments) = .ok request ↔
      ∃ chosen, choices.foldlM choose initial = some chosen ∧ request = .run chosen := by
  rw [ofArguments, ofArgumentsFrom_flatMap_eq_ok_iff]
  simp [settle]

end Request

section ShowRules

open Options

variable {options next chosen : Options}

end ShowRules

end LinePrune
