/-
This file rounds decimals to binary numbers of 53 significant bits and writes these shortest.
-/

namespace LinePrune.Decimal

/-- A number of the format is its significand times a power of two. -/
structure Binary64 where
  significand : Nat
  exponent : Int
  deriving DecidableEq, Repr

namespace Binary64

def precision : Nat := 53

def lowestExponent : Int := -1074

def highestExponent : Int := 971

/-- A fraction is a numerator over a denominator. This one is the number times a power of the
base. -/
def scale (base : Nat) (number : Nat × Nat) (exponent : Int) : Nat × Nat :=
  if exponent < 0 then (number.1, number.2 * Nat.pow base exponent.natAbs)
  else (number.1 * Nat.pow base exponent.natAbs, number.2)

/-- A half goes to the even neighbour. -/
def roundHalfEven (numerator denominator : Nat) : Nat :=
  let floor := numerator / denominator
  let rest := 2 * (numerator % denominator)
  if rest < denominator then floor
  else if denominator < rest then floor + 1
  else if floor % 2 = 0 then floor else floor + 1

/-- The exponent that leaves the whole part of the fraction with 53 bits, if the format has it. -/
def exponentFor (number : Nat × Nat) : Int :=
  let estimate := (number.1.log2 : Int) - (number.2.log2 : Int) - precision
  let scaled := scale 2 number (-estimate)
  let exact := if scaled.1 / scaled.2 < Nat.pow 2 precision then estimate else estimate + 1
  max exact lowestExponent

/-- The nearest number of the format to a positive fraction, or none when it is too large. -/
def ofFraction? (number : Nat × Nat) : Option Binary64 :=
  let exponent := exponentFor number
  let scaled := scale 2 number (-exponent)
  let rounded := roundHalfEven scaled.1 scaled.2
  let result : Binary64 :=
    if rounded = Nat.pow 2 precision then ⟨Nat.pow 2 (precision - 1), exponent + 1⟩
    else ⟨rounded, exponent⟩
  if highestExponent < result.exponent then none else some result

/-- Powers of ten above this one exceed the format, and those below its negative vanish in it. -/
def decimalRange : Int := 400

/-- The number of decimal digits decides far out, before any large power is computed. -/
def ofDecimal? (digits : Nat) (exponent : Int) : Option Binary64 :=
  let size := exponent + (Nat.toDigits 10 digits).length
  if digits = 0 || size < -decimalRange then some ⟨0, lowestExponent⟩
  else if decimalRange < size then none
  else ofFraction? (scale 10 (digits, 1) exponent)

/-- The decimals that round to the number lie between these two fractions. The gap below a power
of two is half as wide as the one above it. -/
def lowerBound (number : Binary64) : Nat × Nat :=
  if number.significand = Nat.pow 2 (precision - 1) && lowestExponent < number.exponent then
    scale 2 (4 * number.significand - 1, 1) (number.exponent - 2)
  else scale 2 (2 * number.significand - 1, 1) (number.exponent - 1)

def upperBound (number : Binary64) : Nat × Nat :=
  scale 2 (2 * number.significand + 1, 1) (number.exponent - 1)

def fractionLt (first second : Nat × Nat) : Bool :=
  first.1 * second.2 < second.1 * first.2

/-- The bounds themselves round to the number when its significand is even. -/
def isRoundedFrom (number : Binary64) (decimal : Nat × Nat) : Bool :=
  if number.significand % 2 = 0 then
    !fractionLt decimal number.lowerBound && !fractionLt number.upperBound decimal
  else fractionLt number.lowerBound decimal && fractionLt decimal number.upperBound

/-- Of the multiples of a power of ten that round to the number, this is the nearest one. A tie
goes to the larger multiple. -/
def onGrid? (number : Binary64) (power : Int) : Option Nat :=
  let scaled := scale 10 (scale 2 (number.significand, 1) number.exponent) (-power)
  let below := scaled.1 / scaled.2
  let fits (multiple : Nat) := number.isRoundedFrom (scale 10 (multiple, 1) power)
  let nearerBelow := 2 * (scaled.1 % scaled.2) < scaled.2
  if fits below && (nearerBelow || !fits (below + 1)) then some below
  else if fits (below + 1) then some (below + 1)
  else none

def highestPower : Int := 309

/-- The search goes from the coarsest grid to the finest one and takes the first hit. -/
def shortestFrom? (number : Binary64) : Nat → Int → Option (Nat × Int)
  | 0, _ => none
  | steps + 1, power =>
      match number.onGrid? power with
      | some digits => some (digits, power)
      | none => number.shortestFrom? steps (power - 1)

/-- The digits and the power of ten of the shortest decimal that rounds to a positive number. -/
def shortest (number : Binary64) : Nat × Int :=
  (number.shortestFrom? 700 highestPower).getD (0, 0)

end Binary64

/-- Positional text has all zeros up to the point, and at least one digit on both of its sides. -/
def positional (digits : Nat) (power : Int) : List Char :=
  let text := Nat.toDigits 10 digits
  if 0 ≤ power then text ++ List.replicate power.toNat '0' ++ ['.', '0']
  else
    let places := power.natAbs
    let padded := List.replicate (places + 1 - text.length) '0' ++ text
    padded.take (padded.length - places) ++ ['.'] ++ padded.drop (padded.length - places)

end LinePrune.Decimal
