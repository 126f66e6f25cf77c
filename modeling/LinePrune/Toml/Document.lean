/-
This file reads a document as statements and builds the members of its root table.
-/

import LinePrune.Toml.Filler
import LinePrune.Toml.Moment
import LinePrune.Toml.Number
import LinePrune.Toml.Table
import LinePrune.Toml.Text

namespace LinePrune.Toml

def isBareKeyChar (c : Char) : Bool :=
  ('a' ≤ c && c ≤ 'z') || ('A' ≤ c && c ≤ 'Z') || ('0' ≤ c && c ≤ '9') || c = '_' || c = '-'

/-- Quoted keys are short strings. -/
def simpleKey? (chars : List Char) : Option (String × List Char) :=
  let bare := chars.takeWhile isBareKeyChar
  if bare.isEmpty then
    (shortString? chars).map fun (key, rest) => (String.ofList key, rest)
  else some (String.ofList bare, chars.dropWhile isBareKeyChar)

/-- A key in dotted form leads through the keys before the last one. Blanks may surround its dots
and follow it. -/
def dottedKey? : Nat → List Char → Option ((List String × String) × List Char)
  | 0, _ => none
  | fuel + 1, chars => do
      let (key, rest) ← simpleKey? (skipBlanks chars)
      match skipBlanks rest with
      | '.' :: more => do
          let ((path, last), rest) ← dottedKey? fuel more
          return ((key :: path, last), rest)
      | rest => return (([], key), rest)

/-- A token ends at a blank, at the end of its line, or at punctuation. -/
def isTokenChar (c : Char) : Bool :=
  !(isBlank c || c = '\n' || c = '\r' || c = '#' || c = ',' || c = '=' || c = '[' || c = ']' ||
    c = '\x7b' || c = '\x7d')

def isQuote (c : Char) : Bool :=
  c = '"' || c = '\''

/-- A token goes on behind blanks unless a string or something that ends a token comes next. -/
def tokenGoesOn (chars : List Char) : Bool :=
  match skipBlanks chars with
  | [] => false
  | c :: _ => isTokenChar c && !isQuote c

/-- The first part is the token with the blanks inside it, and the second one what follows. -/
def splitToken : List Char → List Char × List Char
  | [] => ([], [])
  | c :: rest =>
      if isTokenChar c || (isBlank c && tokenGoesOn rest) then
        let (token, rest) := splitToken rest
        (c :: token, rest)
      else ([], c :: rest)

/-- A scalar is a word, a number or a moment that takes up a whole token. -/
def scalarOf? (token : List Char) : Option Value :=
  if token = ['t', 'r', 'u', 'e'] then some (.boolean true)
  else if token = ['f', 'a', 'l', 's', 'e'] then some (.boolean false)
  else (number? token).or (if isMoment token then some .moment else none)

def scalar? (chars : List Char) : Option (Value × List Char) :=
  let (token, rest) := splitToken chars
  (scalarOf? token).map fun value => (value, rest)

mutual

/-- There is no bound on how deep values are nested. A reader with a bound would refuse deep
nesting here, but no part of a configuration is nested deeply. -/
def value? : Nat → List Char → Option (Value × List Char)
  | 0, _ => none
  | fuel + 1, chars =>
      match chars with
      | '"' :: _ => (string? chars).map fun (text, rest) => (.text (String.ofList text), rest)
      | '\'' :: _ => (string? chars).map fun (text, rest) => (.text (String.ofList text), rest)
      | '[' :: rest => (items? fuel rest).map fun (items, rest) => (.array .listed items, rest)
      | '\x7b' :: rest =>
          (inlineMembers? fuel [] rest).map fun (members, rest) => (.table .inline members, rest)
      | _ => scalar? chars

/-- The items of an array stand between commas, and a comma may follow the last one. -/
def items? : Nat → List Char → Option (List Value × List Char)
  | 0, _ => none
  | fuel + 1, chars =>
      match skipFiller false chars with
      | ']' :: rest => some ([], rest)
      | chars => do
          let (item, rest) ← value? fuel chars
          match skipFiller false rest with
          | ',' :: rest => do
              let (items, rest) ← items? fuel rest
              return (item :: items, rest)
          | ']' :: rest => return ([item], rest)
          | _ => none

/-- The members of an inline table stand between commas, and a comma may follow the last one. Line
ends and comments may stand around an equals sign, but not inside a key. -/
def inlineMembers? : Nat → Members → List Char → Option (Members × List Char)
  | 0, _, _ => none
  | fuel + 1, members, chars =>
      match skipFiller false chars with
      | '\x7d' :: rest => some (members, rest)
      | chars => do
          let ((path, key), rest) ← dottedKey? fuel chars
          let rest ← mark? '=' (skipFiller false rest)
          let (value, rest) ← value? fuel (skipFiller false rest)
          let members ← members.assign .inline path key value
          match skipFiller false rest with
          | ',' :: rest => inlineMembers? fuel members rest
          | '\x7d' :: rest => return (members, rest)
          | _ => none

end

/-- A header in double brackets closes with both of them. -/
def header? (fuel : Nat) (chars : List Char) : Option (Statement × List Char) :=
  match chars with
  | '[' :: rest => do
      let ((path, key), rest) ← dottedKey? fuel rest
      let rest ← mark? ']' rest
      let rest ← mark? ']' rest
      return (.openElement path key, rest)
  | _ => do
      let ((path, key), rest) ← dottedKey? fuel chars
      let rest ← mark? ']' rest
      return (.openTable path key, rest)

def assignment? (fuel : Nat) (chars : List Char) : Option (Statement × List Char) := do
  let ((path, key), rest) ← dottedKey? fuel chars
  let rest ← mark? '=' rest
  let (value, rest) ← value? fuel (skipBlanks rest)
  return (.assign path key value, rest)

def statement? (fuel : Nat) (chars : List Char) : Option (Statement × List Char) :=
  match chars with
  | '[' :: rest => header? fuel rest
  | _ => assignment? fuel chars

/-- Each line holds one statement at most, and a statement may go on over several lines. -/
def statements? (fuel : Nat) : Nat → List Char → Option (List Statement)
  | 0, _ => none
  | lines + 1, chars =>
      if chars.isEmpty then some []
      else
        match endOfLine? chars with
        | some rest => statements? fuel lines rest
        | none => do
            let (statement, rest) ← statement? fuel (skipBlanks chars)
            let rest ← endOfLine? rest
            let statements ← statements? fuel lines rest
            return statement :: statements

/-- No reader makes more steps than this, since every two of them use up a character. -/
def stepBound (chars : List Char) : Nat :=
  2 * chars.length + 2

/-- A byte order mark may stand at the very beginning. -/
def skipByteOrderMark : List Char → List Char
  | '\ufeff' :: rest => rest
  | chars => chars

/-- The members of the root table, unless the text is not a document. -/
def parse? (text : String) : Option Members := do
  let chars := skipByteOrderMark text.toList
  let statements ← statements? (stepBound chars) (stepBound chars) chars
  Members.ofStatements statements

end LinePrune.Toml
