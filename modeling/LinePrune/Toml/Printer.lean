import LinePrune.Text.Control

namespace LinePrune.Toml

/-- Tabs, and in long strings line feeds, may stand as themselves. -/
def isControlBut (allowed : List Char) (c : Char) : Bool :=
  Text.isControl c && !allowed.contains c

/-- The length of the longest run of the character. The first number is that of the current run. -/
def longestRun (c : Char) : Nat → List Char → Nat
  | run, [] => run
  | run, first :: rest =>
      if first = c then longestRun c (run + 1) rest else max run (longestRun c 0 rest)

inductive StringForm where
  | basic
  | literal
  | longBasic
  | longLiteral
  deriving DecidableEq, Repr

/-- The forms are tried from the plainest on. The last resort writes escapes. -/
def formOf (chars : List Char) : StringForm :=
  if chars.all fun c => !isControlBut ['\t'] c && c ≠ '\\' && c ≠ '"' then .basic
  else if chars.all fun c => !isControlBut ['\t'] c && c ≠ '\'' then .literal
  else if (chars.all fun c => !isControlBut ['\t', '\n'] c && c ≠ '\\') &&
      longestRun '"' 0 chars ≤ 2 then .longBasic
  else if (chars.all fun c => !isControlBut ['\t', '\n'] c) && longestRun '\'' 0 chars ≤ 2 then
    .longLiteral
  else if chars.contains '\n' then .longBasic
  else .basic

def upperHexDigit (value : Nat) : Char :=
  (Nat.digitChar value).toUpper

/-- Two hexadecimal digits suffice for every control character. -/
def controlEscape (c : Char) : List Char :=
  ['\\', 'u', '0', '0', upperHexDigit (c.toNat / 16), upperHexDigit (c.toNat % 16)]

/-- The spelling of a character other than a quote. In a long string a line feed stands as
itself. -/
def escapeChar (long : Bool) (c : Char) : List Char :=
  if c = '\\' then ['\\', '\\']
  else if c = '\x08' then ['\\', 'b']
  else if c = '\t' then ['\\', 't']
  else if c = '\n' && long then ['\n']
  else if c = '\x0c' then ['\\', 'f']
  else if c = '\r' then ['\\', 'r']
  else if Text.isControl c then controlEscape c
  else [c]

/-- In a long string only every third of the quotes that follow each other is escaped. The number
counts the quotes right before. -/
def escapeText (long : Bool) : Nat → List Char → List Char
  | _, [] => []
  | quotes, c :: rest =>
      if c = '"' then
        if long && quotes < 2 then '"' :: escapeText long (quotes + 1) rest
        else '\\' :: '"' :: escapeText long 0 rest
      else escapeChar long c ++ escapeText long 0 rest

/-- A long string that holds a line feed starts on a new line. -/
def openingNewline (chars : List Char) : List Char :=
  if chars.contains '\n' then ['\n'] else []

def writeChars (chars : List Char) : List Char :=
  match formOf chars with
  | .basic => ['"'] ++ escapeText false 0 chars ++ ['"']
  | .literal => ['\''] ++ chars ++ ['\'']
  | .longBasic =>
      ['"', '"', '"'] ++ openingNewline chars ++ escapeText true 0 chars ++ ['"', '"', '"']
  | .longLiteral =>
      ['\'', '\'', '\''] ++ openingNewline chars ++ chars ++ ['\'', '\'', '\'']

def writeString (text : String) : String :=
  String.ofList (writeChars text.toList)

/-- The items are already written. -/
def writeArray : List String → String
  | [] => "[]"
  | [item] => "[" ++ item ++ "]"
  | items => "[\n" ++ String.join (items.map fun item => "    " ++ item ++ ",\n") ++ "]"

def writeAssignment (key value : String) : String :=
  key ++ " = " ++ value ++ "\n"

end LinePrune.Toml
