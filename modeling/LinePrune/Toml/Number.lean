import LinePrune.Toml.Digits
import LinePrune.Toml.Value

namespace LinePrune.Toml

/-- The flag is true for a minus sign. -/
def splitSign : List Char → Bool × List Char
  | '-' :: rest => (true, rest)
  | '+' :: rest => (false, rest)
  | chars => (false, chars)

def signed (negative : Bool) (magnitude : Nat) : Int :=
  if negative then -magnitude else magnitude

def isExponentMark (c : Char) : Bool :=
  c = 'e' || c = 'E'

/-- A mark without digits is still read as an integer. -/
def radixInteger? (base : Nat) (digits : List Char) : Option Value :=
  if digits.isEmpty then some .integerWithoutValue
  else (groupedDigits? base digits).map fun digits => .integer (valueOfDigits base digits)

/-- Zero leads no other digits. -/
def isLeadingDigit (c : Char) : Bool :=
  c ≠ '0' && (digit? 10 c).isSome

def decimalInteger? (negative : Bool) (magnitude : List Char) : Option Value :=
  (decimalDigits? magnitude).map fun digits => .integer (signed negative (valueOfDigits 10 digits))

/-- Blanks, points and exponent marks stand in no integer. -/
def isIntegerChar (c : Char) : Bool :=
  c ≠ ' ' && c ≠ '.' && !isExponentMark c

/-- The character stands right before the others. Among those every underscore follows a digit, and
whatever follows an underscore is a digit, each of any base. -/
def isWellParted : Char → List Char → Bool
  | before, [] => before ≠ '_'
  | before, c :: rest =>
      (if c = '_' then isAnyDigit before else before ≠ '_' || isAnyDigit c) && isWellParted c rest

/-- Behind its first underscore an integer may hold other characters than digits, and with them it
has no value. -/
def isPartedInteger (magnitude : List Char) : Bool :=
  match magnitude.dropWhile fun c => (digit? 10 c).isSome with
  | '_' :: rest =>
      magnitude.head?.any isLeadingDigit && rest.all isIntegerChar && isWellParted '_' rest
  | _ => false

/-- Only decimal integers have a sign. -/
def integer? (token : List Char) : Option Value :=
  match token with
  | '0' :: 'x' :: digits => radixInteger? 16 digits
  | '0' :: 'o' :: digits => radixInteger? 8 digits
  | '0' :: 'b' :: digits => radixInteger? 2 digits
  | _ =>
      let (negative, magnitude) := splitSign token
      (decimalInteger? negative magnitude).or
        (if isPartedInteger magnitude then some .integerWithoutValue else none)

/-- The digits after the point are none when there is no point. -/
def fraction? : List Char → Option (List Nat)
  | [] => some []
  | '.' :: digits => groupedDigits? 10 digits
  | _ => none

/-- The exponent is zero when there is no mark. -/
def exponent? : List Char → Option Int
  | [] => some 0
  | _ :: rest =>
      let (negative, magnitude) := splitSign rest
      (groupedDigits? 10 magnitude).map fun digits => signed negative (valueOfDigits 10 digits)

/-- A real number needs a fraction or an exponent, and digits before either. -/
def decimal? (token : List Char) : Option Value :=
  let (negative, rest) := splitSign token
  let mantissa := rest.takeWhile (!isExponentMark ·)
  let exponent := rest.dropWhile (!isExponentMark ·)
  let whole := mantissa.takeWhile (· ≠ '.')
  let fraction := mantissa.dropWhile (· ≠ '.')
  if fraction.isEmpty && exponent.isEmpty then none
  else do
    let wholeDigits ← decimalDigits? whole
    let fractionDigits ← fraction? fraction
    let power ← exponent? exponent
    return .real (.decimal negative (valueOfDigits 10 (wholeDigits ++ fractionDigits))
      (power - fractionDigits.length))

def real? (token : List Char) : Option Value :=
  let (negative, rest) := splitSign token
  if rest = ['i', 'n', 'f'] then some (.real (.infinity negative))
  else if rest = ['n', 'a', 'n'] then some (.real .nan)
  else decimal? token

def number? (token : List Char) : Option Value :=
  (integer? token).or (real? token)

end LinePrune.Toml
