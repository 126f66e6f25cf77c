import LinePrune.Config
import LinePrune.Decimal.Binary64
import LinePrune.Toml.Document

namespace LinePrune.Config

/-- What a place in a configuration asks for. -/
inductive Expected where
  | path
  | rules
  | sequence
  | position
  | trigger
  deriving DecidableEq, Repr

def Expected.name : Expected → String
  | .path => "path string"
  | .rules => "struct RemovalRules"
  | .sequence => "a sequence"
  | .position => "usize"
  | .trigger => "a string"

/-- The tables of a configuration, each with the names of its fields. -/
inductive Scope where
  | top
  | rules
  deriving DecidableEq, Repr

def Scope.fields : Scope → String
  | .top => "`target` or `rules`"
  | .rules => "one of `conditional`, `triggers`, `unconditional`"

/-- A mismatch tells why a document is no configuration. -/
inductive Mismatch where
  | unknownField (name : String) (scope : Scope)
  | wrongType (found : String) (expected : Expected)
  | negativePosition (value : Int)
  | integerOverflow
  | realOverflow
  deriving DecidableEq, Repr

def Mismatch.message : Mismatch → String
  | .unknownField name scope => "unknown field `" ++ name ++ "`, expected " ++ scope.fields
  | .wrongType found expected => "invalid type: " ++ found ++ ", expected " ++ expected.name
  | .negativePosition value =>
      "invalid value: integer `" ++ toString value ++ "`, expected " ++ Expected.position.name
  | .integerOverflow => "integer number overflowed"
  | .realOverflow => "floating-point number overflowed"

def signOf (negative : Bool) : String :=
  if negative then "-" else ""

/-- The text of a real number is that of the nearest binary number, unless there is none. -/
def realText? : Toml.RealLiteral → Option String
  | .nan => some "NaN"
  | .infinity negative => some (signOf negative ++ "inf")
  | .decimal negative digits exponent =>
      (Decimal.Binary64.ofDecimal? digits exponent).map fun number =>
        if number.significand = 0 then signOf negative ++ "0.0"
        else
          let (shortDigits, power) := number.shortest
          signOf negative ++ String.ofList (Decimal.positional shortDigits power)

/-- A kind with the given number of bits tells so many integers apart. -/
def integersOfWidth (bits : Nat) : Int :=
  Int.pow 2 bits

/-- Integers are told apart by the narrowest of the kinds of 64 and 128 bits that hold them. -/
def integerText? (value : Int) : Option String :=
  if -integersOfWidth 63 ≤ value && value < integersOfWidth 64 then
    some ("integer `" ++ toString value ++ "`")
  else if -integersOfWidth 127 ≤ value && value < integersOfWidth 127 then
    some ("integer `" ++ toString value ++ "` as i128")
  else if 0 ≤ value && value < integersOfWidth 128 then
    some ("integer `" ++ toString value ++ "` as u128")
  else none

/-- A number that no kind can hold is reported as such, whatever was expected. -/
def mismatch (expected : Expected) : Toml.Value → Mismatch
  | .text value => .wrongType ("string " ++ Text.quoted value) expected
  | .integer value =>
      match integerText? value with
      | some text => .wrongType text expected
      | none => .integerOverflow
  | .integerWithoutValue => .integerOverflow
  | .real value =>
      match realText? value with
      | some text => .wrongType ("floating point `" ++ text ++ "`") expected
      | none => .realOverflow
  | .boolean value => .wrongType ("boolean `" ++ toString value ++ "`") expected
  | .moment => .wrongType "map" expected
  | .array _ _ => .wrongType "sequence" expected
  | .table _ _ => .wrongType "map" expected

def decodePath : Toml.Value → Except Mismatch RawText
  | .text value => .ok value
  | value => .error (mismatch .path value)

def decodeTrigger : Toml.Value → Except Mismatch String
  | .text value => .ok value
  | value => .error (mismatch .trigger value)

/-- A position fits a word, and no other integer is turned into one. -/
def decodePosition : Toml.Value → Except Mismatch Position
  | .integer value =>
      if 0 ≤ value && value < integersOfWidth 64 then .ok (UInt64.ofNat value.toNat)
      else if -integersOfWidth 63 ≤ value && value < 0 then .error (.negativePosition value)
      else .error (mismatch .position (.integer value))
  | value => .error (mismatch .position value)

def decodeItems {α : Type} (decode : Toml.Value → Except Mismatch α) :
    Toml.Value → Except Mismatch (List α)
  | .array _ items => items.mapM decode
  | value => .error (mismatch .sequence value)

def decodePositions (value : Toml.Value) : Except Mismatch Positions :=
  (decodeItems decodePosition value).map Positions.ofList

def decodeTriggers (value : Toml.Value) : Except Mismatch (List String) :=
  decodeItems decodeTrigger value

def decodeRulesField (rules : Rules) (name : String) (value : Toml.Value) :
    Except Mismatch Rules :=
  if name = "conditional" then
    (decodePositions value).map fun positions => { rules with conditional := positions }
  else if name = "triggers" then
    (decodeTriggers value).map fun triggers => { rules with triggers := triggers }
  else if name = "unconditional" then
    (decodePositions value).map fun positions => { rules with unconditional := positions }
  else .error (.unknownField name .rules)

/-- The fields of rules in the order in which a list of them is read. -/
def rulesFields : List String := ["conditional", "triggers", "unconditional"]

/-- A moment counts as a map with this one member where a map is looked into. -/
def momentField : String := "$__toml_private_datetime"

/-- Rules may also be listed without field names. What follows the last field is not looked at. -/
def decodeRules : Toml.Value → Except Mismatch Rules
  | .table _ members =>
      members.foldlM (fun rules member => decodeRulesField rules member.1 member.2) .default
  | .array _ items =>
      (rulesFields.zip items).foldlM
        (fun rules field => decodeRulesField rules field.1 field.2) .default
  | .moment => .error (.unknownField momentField .rules)
  | value => .error (mismatch .rules value)

def decodeField (config : Config) (name : String) (value : Toml.Value) :
    Except Mismatch Config :=
  if name = "target" then (decodePath value).map fun target => { config with target := target }
  else if name = "rules" then (decodeRules value).map fun rules => { config with rules := rules }
  else .error (.unknownField name .top)

/-- Members are visited in the order of their keys, whatever their order in the document. -/
def decode (members : Toml.Members) : Except Mismatch Config :=
  members.foldlM (fun config member => decodeField config member.1 member.2) .default

end LinePrune.Config
