import LinePrune.Text.Hidden

namespace LinePrune.Text

/-- The escape of a code point is its hexadecimal number in braces, without leading zeros. -/
def codePointEscape (c : Char) : List Char :=
  ['\\', 'u', '\x7b'] ++ Nat.toDigits 16 c.toNat ++ ['\x7d']

def escape (c : Char) : List Char :=
  if c = '\x00' then ['\\', '0']
  else if c = '\t' then ['\\', 't']
  else if c = '\r' then ['\\', 'r']
  else if c = '\n' then ['\\', 'n']
  else if c = '"' then ['\\', '"']
  else if c = '\\' then ['\\', '\\']
  else if Hidden.isHidden c then codePointEscape c
  else [c]

/-- The quoted form escapes each character on its own, whatever stands beside it. -/
def quoted (text : String) : String :=
  String.ofList ('"' :: text.toList.flatMap escape ++ ['"'])

end LinePrune.Text
