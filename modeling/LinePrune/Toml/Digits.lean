namespace LinePrune.Toml

/-- A digit of any base up to sixteen, in either case. -/
def digit? (base : Nat) (c : Char) : Option Nat :=
  let value? :=
    if '0' ≤ c && c ≤ '9' then some (c.toNat - '0'.toNat)
    else if 'a' ≤ c && c ≤ 'f' then some (c.toNat - 'a'.toNat + 10)
    else if 'A' ≤ c && c ≤ 'F' then some (c.toNat - 'A'.toNat + 10)
    else none
  value?.filter (· < base)

def isAnyDigit (c : Char) : Bool :=
  (digit? 16 c).isSome

/-- The first digit weighs most. -/
def valueOfDigits (base : Nat) (digits : List Nat) : Nat :=
  digits.foldl (fun value digit => base * value + digit) 0

/-- An underscore needs a digit on both of its sides. -/
def groupedDigits? (base : Nat) : List Char → Option (List Nat)
  | [] => none
  | [c] => (digit? base c).map fun digit => [digit]
  | c :: '_' :: rest => do
      let digit ← digit? base c
      let digits ← groupedDigits? base rest
      return digit :: digits
  | c :: rest => do
      let digit ← digit? base c
      let digits ← groupedDigits? base rest
      return digit :: digits

/-- A decimal number has no leading zero. -/
def decimalDigits? (chars : List Char) : Option (List Nat) :=
  match chars with
  | '0' :: _ :: _ => none
  | _ => groupedDigits? 10 chars

end LinePrune.Toml
