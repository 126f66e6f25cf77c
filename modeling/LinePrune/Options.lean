import LinePrune.Text.Raw
import LinePrune.Text.Terminal

namespace LinePrune

/-- These options take a value, either as the next argument or behind an equals sign. -/
inductive ValueOption where
  | target
  | config
  deriving DecidableEq, Repr

def ValueOption.name : ValueOption → String
  | .target => "--target"
  | .config => "--config"

def ValueOption.usage : ValueOption → String
  | .target => "--target <TARGET>"
  | .config => "--config <CONFIG>"

/-- Flags take no value. -/
inductive Flag where
  | showRules
  | help
  | version
  deriving DecidableEq, Repr

def Flag.name : Flag → String
  | .showRules => "--show-rules"
  | .help => "--help"
  | .version => "--version"

inductive UsageError where
  | unexpectedArgument (argument : String)
  | missingValue (option : ValueOption)
  | repeatedOption (option : ValueOption)
  | repeatedFlag (flag : Flag)
  | unexpectedValue (value : String) (flag : Flag)
  deriving DecidableEq, Repr

/-- What the message repeats of the command line is shown without commands to a terminal. -/
def UsageError.message : UsageError → String
  | .unexpectedArgument argument =>
      "error: unexpected argument '" ++ Text.withoutCommands argument ++ "' found"
  | .missingValue option =>
      "error: a value is required for '" ++ option.usage ++ "' but none was supplied"
  | .repeatedOption option =>
      "error: the argument '" ++ option.usage ++ "' cannot be used multiple times"
  | .repeatedFlag flag =>
      "error: the argument '" ++ flag.name ++ "' cannot be used multiple times"
  | .unexpectedValue value flag =>
      "error: unexpected value '" ++ Text.withoutCommands value ++ "' for '" ++ flag.name ++
        "' found; no more were expected"

structure Options where
  target : Option RawText
  config : Option RawText
  showRules : Bool
  deriving DecidableEq, Repr

namespace Options

/-- Nothing is chosen before the first argument. -/
def initial : Options := ⟨none, none, false⟩

def value? (options : Options) : ValueOption → Option RawText
  | .target => options.target
  | .config => options.config

def setValue (options : Options) (value : RawText) : ValueOption → Options
  | .target => { options with target := some value }
  | .config => { options with config := some value }

/-- A second value is refused before its text is looked at. -/
def give (options : Options) (option : ValueOption) (value : RawText) :
    Except UsageError Options :=
  if (options.value? option).isSome then .error (.repeatedOption option)
  else if value.isEmpty then .error (.missingValue option)
  else .ok (options.setValue value option)

/-- An option whose value is the next argument is settled only when the argument after that value
is known to be usable. -/
inductive Pending where
  | nothing
  | awaiting (option : ValueOption)
  | given (option : ValueOption) (value : RawText)
  deriving DecidableEq, Repr

def settle (options : Options) : Pending → Except UsageError Options
  | .nothing => .ok options
  | .awaiting option => .error (.missingValue option)
  | .given option value => options.give option value

end Options

/-- One argument on its own, before it is known what stands around it. -/
inductive Argument where
  | option (option : ValueOption) (value : Option RawText)
  | flag (flag : Flag) (value : Option RawText)
  | unknownOption (shown : String)
  | endOfOptions
  | word (text : RawText)
  deriving DecidableEq, Repr

namespace Argument

/-- The text behind the first equals sign is the value. -/
def splitValue (parts : List RawChar) : List RawChar × Option RawText :=
  match parts.dropWhile (· ≠ .char '=') with
  | [] => (parts, none)
  | _ :: value => (parts.takeWhile (· ≠ .char '='), some ⟨value⟩)

def ofLong (parts : List RawChar) : Argument :=
  let (name, value) := splitValue parts
  let name : RawText := "--" ++ ⟨name⟩
  if name = ValueOption.target.name then .option .target value
  else if name = ValueOption.config.name then .option .config value
  else if name = Flag.showRules.name then .flag .showRules value
  else if name = Flag.help.name then .flag .help value
  else if name = Flag.version.name then .flag .version value
  else .unknownOption name.display

/-- A single dash may carry several letters, of which the first one decides. What begins with stray
bytes has no letter and is shown whole. -/
def ofShort (parts : List RawChar) : Argument :=
  match parts with
  | .char 'h' :: _ => .flag .help none
  | .char 'V' :: _ => .flag .version none
  | .char letter :: _ => .unknownOption (String.ofList ['-', letter])
  | _ => .unknownOption ("-" ++ RawText.display ⟨parts⟩)

/-- A lone dash is a word like any other. -/
def ofText (text : RawText) : Argument :=
  match text.toList with
  | [.char '-', .char '-'] => .endOfOptions
  | .char '-' :: .char '-' :: rest => ofLong rest
  | .char '-' :: first :: rest => ofShort (first :: rest)
  | _ => .word text

end Argument

inductive Request where
  | help
  | version
  | run (options : Options)
  deriving DecidableEq, Repr

namespace Request

/-- Nothing may follow the mark that ends the options. -/
def ofRest (options : Options) (pending : Options.Pending) :
    List RawText → Except UsageError Request
  | [] => (options.settle pending).map .run
  | argument :: _ => .error (.unexpectedArgument argument.display)

/-- Arguments are taken from left to right. The first one that asks for help or for the version, or
that cannot be used, decides. -/
def ofArgumentsFrom (options : Options) (pending : Options.Pending) :
    List RawText → Except UsageError Request
  | [] => (options.settle pending).map .run
  | text :: rest =>
      match Argument.ofText text with
      | .endOfOptions => ofRest options pending rest
      | .unknownOption shown => .error (.unexpectedArgument shown)
      | .word value =>
          match pending with
          | .awaiting option => ofArgumentsFrom options (.given option value) rest
          | _ => .error (.unexpectedArgument value.display)
      | .option option value =>
          match options.settle pending with
          | .error cause => .error cause
          | .ok options =>
              match value with
              | none => ofArgumentsFrom options (.awaiting option) rest
              | some value =>
                  match options.give option value with
                  | .error cause => .error cause
                  | .ok options => ofArgumentsFrom options .nothing rest
      | .flag flag (some value) => .error (.unexpectedValue value.display flag)
      | .flag flag none =>
          match options.settle pending with
          | .error cause => .error cause
          | .ok options =>
              match flag with
              | .help => .ok .help
              | .version => .ok .version
              | .showRules =>
                  if options.showRules then .error (.repeatedFlag .showRules)
                  else ofArgumentsFrom { options with showRules := true } .nothing rest

/-- No argument at all asks for a run with the defaults. -/
def ofArguments (arguments : List RawText) : Except UsageError Request :=
  ofArgumentsFrom .initial .nothing arguments

end Request

end LinePrune
