import LinePrune.Toml.Digits

namespace LinePrune.Toml

def isLeapYear (year : Nat) : Bool :=
  year % 4 = 0 && (year % 100 ≠ 0 || year % 400 = 0)

/-- A month that does not exist has no days. -/
def daysOfMonth (year month : Nat) : Nat :=
  if month ∈ [1, 3, 5, 7, 8, 10, 12] then 31
  else if month ∈ [4, 6, 9, 11] then 30
  else if month = 2 then if isLeapYear year then 29 else 28
  else 0

/-- A field has exactly the given number of digits. -/
def field? (width : Nat) (chars : List Char) : Option (Nat × List Char) :=
  if (chars.take width).length = width then
    ((chars.take width).mapM (digit? 10)).map fun digits =>
      (valueOfDigits 10 digits, chars.drop width)
  else none

def mark? (mark : Char) : List Char → Option (List Char)
  | [] => none
  | c :: rest => if c = mark then some rest else none

def date? (chars : List Char) : Option (List Char) := do
  let (year, rest) ← field? 4 chars
  let rest ← mark? '-' rest
  let (month, rest) ← field? 2 rest
  let rest ← mark? '-' rest
  let (day, rest) ← field? 2 rest
  if 1 ≤ day && day ≤ daysOfMonth year month then some rest else none

/-- A fraction of a second has one digit or more. -/
def secondFraction? : List Char → Option (List Char)
  | '.' :: rest =>
      if (rest.head?.bind (digit? 10)).isSome then
        some (rest.dropWhile fun c => (digit? 10 c).isSome)
      else none
  | chars => some chars

/-- The seconds may be left out, and sixty of them are allowed for a leap second. -/
def seconds? : List Char → Option (List Char)
  | ':' :: rest => do
      let (second, rest) ← field? 2 rest
      if second ≤ 60 then secondFraction? rest else none
  | chars => some chars

def hourAndMinute? (chars : List Char) : Option (List Char) := do
  let (hour, rest) ← field? 2 chars
  let rest ← mark? ':' rest
  let (minute, rest) ← field? 2 rest
  if hour ≤ 23 && minute ≤ 59 then some rest else none

def time? (chars : List Char) : Option (List Char) := do
  let rest ← hourAndMinute? chars
  seconds? rest

def isOffset : List Char → Bool
  | [] => true
  | ['Z'] => true
  | ['z'] => true
  | '+' :: rest => hourAndMinute? rest = some []
  | '-' :: rest => hourAndMinute? rest = some []
  | _ => false

/-- Only a time that follows a date may have an offset. -/
def isTimeOfDate (chars : List Char) : Bool :=
  ((time? chars).map isOffset).getD false

/-- A blank or a letter parts a date from its time. -/
def isTimeMark (c : Char) : Bool :=
  c = ' ' || c = 'T' || c = 't'

def isMoment (token : List Char) : Bool :=
  time? token = some [] ||
    match date? token with
    | some [] => true
    | some (c :: rest) => isTimeMark c && isTimeOfDate rest
    | none => false

end LinePrune.Toml
